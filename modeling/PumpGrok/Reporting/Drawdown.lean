import Mathlib.Algebra.Order.Field.Basic
import Mathlib.Data.Rat.Cast.Order
import Mathlib.Order.WithBot
import PumpGrok.Reporting.Readings
import PumpGrok.Reporting.Realized

/-!
The drawdown of the live gate and of the reports. Both folds carry a peak and an equity and
compare the two once, after the last row: the figure is the decline the range ends in, and that is
the largest one only when the range does not recover from it.

Fractions are exact: the rounding of the floats they are computed in, and of the texts with two
decimals they are shown as, is left out.
-/

namespace PumpGrok

/-! ### Declines -/

/-- How far `equity` lies below `peak`, as a fraction of the peak. -/
def decline (peak equity : ℤ) : ℚ := ((peak - equity : ℤ) : ℚ) / peak

/-- A point of a path above zero, and a later one. -/
structure Declines (path : List ℤ) (peak equity : ℤ) : Prop where
  later : List.Sublist [peak, equity] path
  pos : 0 < peak

/-- The end of a path, against its peak, lies no higher than any point against an earlier one. A
path without a peak counts as being at it. -/
def EndsDeepest (path : List ℤ) (peak last : ℤ) : Prop :=
  ∀ p e, Declines path p e → if 0 < peak then last * p ≤ e * peak else p ≤ e

/-- No decline of the path is larger than `figure`. -/
def Bounds (figure : ℚ) (path : List ℤ) : Prop :=
  ∀ p e, Declines path p e → decline p e ≤ figure

lemma decline_le_iff {p e q f : ℤ} (hp : 0 < p) (hq : 0 < q) :
    decline p e ≤ decline q f ↔ f * p ≤ e * q := by
  have hp' : (0 : ℚ) < p := by exact_mod_cast hp
  have hq' : (0 : ℚ) < q := by exact_mod_cast hq
  rw [decline, decline, div_le_div_iff₀ hp' hq']
  have hcast : ((p - e : ℤ) : ℚ) * q ≤ ((q - f : ℤ) : ℚ) * p ↔ (p - e) * q ≤ (q - f) * p := by
    exact_mod_cast Iff.rfl
  have hleft : (p - e) * q = p * q - e * q := by ring
  have hright : (q - f) * p = p * q - f * p := by ring
  rw [hcast, hleft, hright]
  omega

lemma decline_nonpos_iff {p e : ℤ} (hp : 0 < p) : decline p e ≤ 0 ↔ p ≤ e := by
  have hp' : (0 : ℚ) < p := by exact_mod_cast hp
  rw [decline, div_le_iff₀ hp', zero_mul]
  have hcast : ((p - e : ℤ) : ℚ) ≤ 0 ↔ p - e ≤ 0 := by exact_mod_cast Iff.rfl
  rw [hcast]
  omega

/-- The decline a path ends in bounds all of them when the path ends deepest. -/
lemma bounds_iff (path : List ℤ) (peak last : ℤ) :
    Bounds (if 0 < peak then decline peak last else 0) path ↔ EndsDeepest path peak last := by
  refine forall₃_congr fun p e h => ?_
  split_ifs with hpeak
  · exact decline_le_iff h.pos hpeak
  · exact decline_nonpos_iff h.pos

/-! ### The live gate -/

namespace LiveGate

def minPaperDays : ℤ := 14

def minClosedTrades : ℕ := 50

def minProfitFactor : ℚ := 6 / 5

def maxDrawdownFraction : ℚ := 3 / 20

/-- What a precondition says of itself. -/
inductive Reason where
  | noLedger
  | replayRows
  | noPaper
  | days (days : ℤ)
  | perf (closed : ℕ) (profitFactor : WithTop ℚ) (drawdown : ℚ)

structure Precondition where
  met : Bool
  reason : Reason

structure PerfTally where
  closed : ℕ := 0
  gains : ℤ := 0
  losses : ℤ := 0
  peak : ℤ := 0
  equity : ℤ := 0

def foldPerfRow (t : PerfTally) (row : Event) : PerfTally :=
  match row.payload with
  | .positionClosed p =>
    { t with
      closed := t.closed + 1
      gains := t.gains + max p.realizedPnlLamports 0
      losses := t.losses - min p.realizedPnlLamports 0 }
  | .markToMarket p => { t with peak := max t.peak p.equityLamports, equity := p.equityLamports }
  | _ => t

def PerfTally.drawdown (t : PerfTally) : ℚ := if t.peak ≠ 0 then decline t.peak t.equity else 0

def PerfTally.profitFactor (t : PerfTally) : WithTop ℚ :=
  if t.losses ≠ 0 then ((t.gains / t.losses : ℚ) : WithTop ℚ) else if t.gains ≠ 0 then ⊤ else 0

def paperPerf (paper : List Event) : Precondition :=
  let t := paper.foldl foldPerfRow {}
  { met := decide (minClosedTrades ≤ t.closed) &&
      (decide ((minProfitFactor : WithTop ℚ) ≤ t.profitFactor) &&
        decide (t.drawdown ≤ maxDrawdownFraction))
    reason := .perf t.closed t.profitFactor t.drawdown }

def paperDays (first now : ℤ) : Precondition :=
  let days := max 0 (utcDay now - utcDay first)
  { met := decide (minPaperDays ≤ days), reason := .days days }

/-- The two preconditions on the paper window, the days and the performance; `none` stands for a
ledger that is absent or cannot be read. -/
def paperWindow (ledger : Option (List Event)) (now : ℤ) : Precondition × Precondition :=
  match ledger with
  | none => (⟨false, .noLedger⟩, ⟨false, .noLedger⟩)
  | some rows =>
    if rows.any (·.source = .replay) then (⟨false, .replayRows⟩, ⟨false, .replayRows⟩)
    else
      match rows.filter (·.source = .paper) with
      | [] => (⟨false, .noPaper⟩, ⟨false, .noPaper⟩)
      | row :: paper => (paperDays row.ts now, paperPerf (row :: paper))

/-- The equities of the mark rows, in order. -/
def marks (rows : List Event) : List ℤ :=
  rows.filterMap fun row => match row.payload with
    | .markToMarket p => some p.equityLamports
    | _ => none

/-- The marks of the paper rows. -/
def paperMarks (rows : List Event) : List ℤ := marks (rows.filter (·.source = .paper))

/-! ### The figure of the gate -/

lemma fold_peak (rows : List Event) (t : PerfTally) :
    (rows.foldl foldPerfRow t).peak = (marks rows).foldl max t.peak := by
  induction rows generalizing t with
  | nil => rfl
  | cons row rows ih =>
    rw [List.foldl_cons, ih]
    cases hp : row.payload <;> simp [marks, foldPerfRow, hp]

lemma fold_equity (rows : List Event) (t : PerfTally) :
    (rows.foldl foldPerfRow t).equity = (marks rows).getLastD t.equity := by
  induction rows generalizing t with
  | nil => rfl
  | cons row rows ih =>
    rw [List.foldl_cons, ih]
    cases hp : row.payload with
    | markToMarket p =>
      have hmarks : marks (row :: rows) = p.equityLamports :: marks rows := by simp [marks, hp]
      rw [hmarks, List.getLastD_cons, foldPerfRow, hp]
    | _ => simp [marks, foldPerfRow, hp]

/-- The highest mark, or zero. -/
def highest (path : List ℤ) : ℤ := path.foldl max 0

lemma le_foldl_max (path : List ℤ) (a : ℤ) : a ≤ path.foldl max a := by
  induction path generalizing a with
  | nil => exact le_rfl
  | cons x path ih => exact (le_max_left a x).trans (ih _)

lemma fold_drawdown (rows : List Event) :
    (rows.foldl foldPerfRow {}).drawdown =
      if 0 < highest (marks rows) then decline (highest (marks rows)) ((marks rows).getLastD 0)
      else 0 := by
  have hpeak : (rows.foldl foldPerfRow {}).peak = highest (marks rows) := fold_peak rows {}
  have hequity : (rows.foldl foldPerfRow {}).equity = (marks rows).getLastD 0 :=
    fold_equity rows {}
  have hzero : 0 ≤ highest (marks rows) := le_foldl_max (marks rows) 0
  have hpos : highest (marks rows) ≠ 0 ↔ 0 < highest (marks rows) := by omega
  rw [PerfTally.drawdown, hpeak, hequity]
  exact if_congr hpos rfl rfl

/-- What the gate says of a ledger: it refuses replay rows, and the drawdown it compares is the
largest decline of the paper marks, so that it refuses a run once below its limit. -/
structure Maximal (rows : List Event) (now : ℤ) : Prop where
  figure : ∀ closed pf drawdown, (paperWindow (some rows) now).2.reason = .perf closed pf drawdown →
    Bounds drawdown (paperMarks rows)
  limit : ∀ p e, Declines (paperMarks rows) p e → maxDrawdownFraction < decline p e →
    (paperWindow (some rows) now).2.met = false
  replay : (∃ row ∈ rows, row.source = .replay) → (paperWindow (some rows) now).1.met = false ∧
    (paperWindow (some rows) now).2.met = false

variable {rows : List Event} {now : ℤ}

lemma paperWindow_replay (h : ∃ row ∈ rows, row.source = .replay) :
    paperWindow (some rows) now = (⟨false, .replayRows⟩, ⟨false, .replayRows⟩) := by
  have hany : rows.any (·.source = .replay) = true := by simpa using h
  simp only [paperWindow, if_pos hany]

/-- A ledger without paper rows has no paper marks. -/
lemma paperWindow_perf (now : ℤ) (h : ¬ ∃ row ∈ rows, row.source = .replay) :
    ((paperWindow (some rows) now).2 = paperPerf (rows.filter (·.source = .paper))) ∨
      ((paperWindow (some rows) now).2 = ⟨false, .noPaper⟩ ∧ paperMarks rows = []) := by
  have hany : ¬ rows.any (·.source = .replay) = true := by simpa using h
  simp only [paperWindow, if_neg hany, paperMarks]
  cases hpaper : rows.filter (·.source = .paper) with
  | nil => exact .inr ⟨rfl, rfl⟩
  | cons row paper => exact .inl rfl

lemma not_declines_nil (p e : ℤ) : ¬ Declines [] p e := by
  rintro ⟨hlater, -⟩
  cases hlater

/-- **The gate.** Its drawdown is a maximum when it refuses the ledger for a replay row or the
paper marks end deepest. -/
theorem maximal_iff : Maximal rows now ↔ (∃ row ∈ rows, row.source = .replay) ∨
    EndsDeepest (paperMarks rows) (highest (paperMarks rows)) ((paperMarks rows).getLastD 0) := by
  by_cases hreplay : ∃ row ∈ rows, row.source = .replay
  · refine ⟨fun _ => .inl hreplay, fun _ => ⟨?_, ?_, ?_⟩⟩
    · intro closed pf drawdown hd
      rw [paperWindow_replay hreplay] at hd
      cases hd
    · intro p e _ _
      rw [paperWindow_replay hreplay]
    · intro _
      rw [paperWindow_replay hreplay]
      exact ⟨rfl, rfl⟩
  rcases paperWindow_perf now hreplay with hperf | ⟨hnone, hmarks⟩
  · have hfigure : ((rows.filter (·.source = .paper)).foldl foldPerfRow {}).drawdown =
        if 0 < highest (paperMarks rows) then
          decline (highest (paperMarks rows)) ((paperMarks rows).getLastD 0)
        else 0 := fold_drawdown _
    constructor
    · intro h
      have hb := h.figure _ _ _ (by rw [hperf]; rfl)
      rw [hfigure, bounds_iff] at hb
      exact .inr hb
    · rintro (h | h)
      · exact absurd h hreplay
      rw [← bounds_iff, ← hfigure] at h
      refine ⟨?_, ?_, fun h => absurd h hreplay⟩
      · intro closed pf drawdown hd
        rw [hperf] at hd
        cases hd
        exact h
      · intro p e hdecline hlimit
        have hover := hlimit.trans_le (h p e hdecline)
        rw [hperf]
        simp [paperPerf, not_le.mpr hover]
  · have hvoid : ∀ p e, ¬ Declines (paperMarks rows) p e := by
      rw [hmarks]
      exact not_declines_nil
    refine ⟨fun _ => .inr fun p e h => absurd h (hvoid p e), fun _ => ⟨?_, ?_, ?_⟩⟩
    · intro closed pf drawdown _ p e h
      exact absurd h (hvoid p e)
    · intro p e h
      exact absurd h (hvoid p e)
    · exact fun h => absurd h hreplay

end LiveGate

/-! ### The reports -/

namespace DailyReport

/-- Two folds of one pass, and the rows it folded. -/
structure Bounded where
  startState : LedgerState
  state : LedgerState
  visible : List Event

def foldRow (start stop : ℤ) (b : Bounded) (event : Event) : Bounded :=
  if stop ≤ event.ts then b
  else
    { startState := if event.ts < start then reduce b.startState event else b.startState
      state := reduce b.state event
      visible := b.visible ++ [event] }

def foldBounded (events : List Event) (genesis : LedgerState) (start stop : ℤ) : Bounded :=
  events.foldl (foldRow start stop) ⟨genesis, genesis, []⟩

def feesLamports (events : List Event) (since stop : ℤ) : ℤ :=
  ((events.filter fun e => since ≤ e.ts ∧ e.ts < stop).map fun e => match e.payload with
    | .fillRecorded p => p.venueFeeLamports + p.networkCostLamports
    | .orderRejected p => p.feesLamports
    | _ => 0).sum

/-- The part of closing rows that gained; `none` where nothing closed. -/
def winRate (events : List Event) (since stop : ℤ) : Option ℚ :=
  let closed := Views.closedInRange events since stop
  if closed = [] then none
  else some ((closed.filter fun p => 0 < p.realizedPnlLamports).length / closed.length)

structure RangeReport extends ReportModel where
  seq : ℕ
  equityStartLamports : ℤ
  trades : ℕ
  closed : ℕ
  winRate : Option ℚ
  realizedLamports : ℤ
  feesVenueLamports : ℤ
  maxDrawdownPct : ℚ

/-- The report of the days `day` to `last`: a day's own, or the week's. -/
def build (initialEquity : ℤ) (events : List Event) (day last : ℤ) : RangeReport :=
  let start := dayStart day
  let stop := dayNext last
  let window := events.filter fun e => start ≤ e.ts ∧ e.ts < stop
  let b := foldBounded events (initialState initialEquity day) start stop
  { toReportModel := dailyReport b.state
    seq := (b.visible.getLast?.map (·.seq)).getD 0
    equityStartLamports := Views.equityLamports b.startState
    trades := (window.filter (·.payload.isFill)).length
    closed := (window.filter fun e => e.payload matches .positionClosed _).length
    winRate := winRate b.visible start stop
    realizedLamports := Views.realizedPnlLamports b.visible start stop
    feesVenueLamports := feesLamports b.visible start stop
    maxDrawdownPct := Views.drawdownFraction b.state * 100 }

/-- The state of a ledger before an instant. -/
def stateAt (genesis : LedgerState) (events : List Event) (t : ℤ) : LedgerState :=
  replay genesis (events.filter fun e => e.ts < t)

/-- The equities of a range of days: before its rows and at each settled point. -/
def rangeEquities (initialEquity : ℤ) (events : List Event) (day last : ℤ) : List ℤ :=
  Backtest.equityPath (stateAt (initialState initialEquity day) events (dayStart day))
    (events.filter fun e => dayStart day ≤ e.ts ∧ e.ts < dayNext last)

lemma foldl_state (start stop : ℤ) (events : List Event) (b : Bounded) :
    (events.foldl (foldRow start stop) b).state =
      replay b.state (events.filter fun e => e.ts < stop) := by
  induction events generalizing b with
  | nil => simp [replay]
  | cons e events ih =>
    rw [List.foldl_cons, ih]
    by_cases hstop : stop ≤ e.ts
    · simp [foldRow, hstop, not_lt.mpr hstop]
    · simp [foldRow, hstop, not_le.mp hstop, replay_cons]

variable (initialEquity : ℤ) (events : List Event) (day last : ℤ)

/-- The state the range ends in. -/
def finalState : LedgerState := stateAt (initialState initialEquity day) events (dayNext last)

/-- What the report states as the maximum is the fraction at the end of the range. -/
lemma build_drawdown : (build initialEquity events day last).maxDrawdownPct =
    Views.drawdownFraction (finalState initialEquity events day last) * 100 := by
  have hstate := foldl_state (dayStart day) (dayNext last) events
    ⟨initialState initialEquity day, initialState initialEquity day, []⟩
  rw [build, foldBounded, hstate]
  rfl

/-- The percentage of the report bounds the declines of its range. -/
def Maximal : Prop :=
  Bounds ((build initialEquity events day last).maxDrawdownPct / 100)
    (rangeEquities initialEquity events day last)

/-- **The reports.** The figure is a maximum when the range ends deepest. -/
theorem maximal_iff : Maximal initialEquity events day last ↔
    EndsDeepest (rangeEquities initialEquity events day last)
      (finalState initialEquity events day last).peakEquityLamports
      (equityLamports (finalState initialEquity events day last)) := by
  have hfraction : ∀ state : LedgerState, Views.drawdownFraction state =
      if 0 < state.peakEquityLamports then
        decline state.peakEquityLamports (equityLamports state)
      else 0 := by
    intro state
    rw [Views.drawdownFraction]
    split_ifs with hzero hpos hpos
    · exact absurd hpos (not_lt.mpr hzero)
    · rfl
    · rfl
    · exact absurd (not_lt.mp hpos) hzero
  rw [Maximal, build_drawdown, mul_div_cancel_right₀ _ (by norm_num), hfraction, bounds_iff]

end DailyReport

/-! ### Both figures -/

/-- The drawdowns of the gate and of the report of a range are maxima. -/
def DrawdownsMaximal (initialEquity : ℤ) (rows : List Event) (now day last : ℤ) : Prop :=
  LiveGate.Maximal rows now ∧ DailyReport.Maximal initialEquity rows day last

/-- **Drawdowns.** The two figures are maxima exactly when the marks and the states end deepest, or
the gate refuses the ledger outright. -/
theorem drawdowns_maximal_iff (initialEquity : ℤ) (rows : List Event) (now day last : ℤ) :
    DrawdownsMaximal initialEquity rows now day last ↔
      ((∃ row ∈ rows, row.source = .replay) ∨
        EndsDeepest (LiveGate.paperMarks rows) (LiveGate.highest (LiveGate.paperMarks rows))
          ((LiveGate.paperMarks rows).getLastD 0)) ∧
      EndsDeepest (DailyReport.rangeEquities initialEquity rows day last)
        (DailyReport.finalState initialEquity rows day last).peakEquityLamports
        (equityLamports (DailyReport.finalState initialEquity rows day last)) :=
  and_congr LiveGate.maximal_iff (DailyReport.maximal_iff initialEquity rows day last)

/-! ### A crash and its recovery -/

namespace Drawdown

def paperRow (ts : ℤ) (n : ℕ) (payload : Payload) : Event :=
  { ts := ts, source := .paper, key := .other n, payload := payload, seq := n }

def coin : Mint := "c".toList

def bought (n : ℕ) (lamports : ℤ) : List Payload :=
  [.fillRecorded
    { orderId := n, decisionId := none, side := .buy, mint := coin, filledLamports := lamports
      filledUnits := 1000, filledFraction := 1, priceAvg := 1, venueTxRef := n
      cashDeltaLamports := -lamports },
   .positionOpened
    { mint := coin, priceEntry := 1, tokenUnits := 1000, costBasisLamports := lamports
      openedTs := 0, creator := [], ticketId := [] }]

def sold (n : ℕ) (cost proceeds : ℤ) : List Payload :=
  [.fillRecorded
    { orderId := n, decisionId := none, side := .sell, mint := coin, filledLamports := proceeds
      filledUnits := 1000, filledFraction := 1, priceAvg := 1, venueTxRef := n
      cashDeltaLamports := proceeds },
   .positionClosed
    { mint := coin, priceExit := 1, proceedsLamports := proceeds
      realizedPnlLamports := proceeds - cost, reason := .rule .takeProfit, pnlPct := 1
      holdSeconds := 60, venueTxRef := n }]

def marked (value equity : ℤ) : Payload :=
  .markToMarket
    { tsSource := 0, cashLamports := 4050000000, equityLamports := equity
      unrealizedLamports := value - 6000000000
      prices := [(coin, ⟨value, 0, 1, none⟩)] }

/-- Fifty small gains, then a position of six tenths of the book that loses five sixths of its
value and gains them back. -/
def recovered : List Event :=
  (((List.range 50).flatMap fun n => bought n 100000000 ++ sold n 100000000 101000000) ++
    (bought 50 6000000000 ++ [marked 6000000000 10050000000, marked 1000000000 5050000000,
      marked 6000000000 10050000000])).mapIdx fun n payload => paperRow n n payload

lemma recovered_met :
    (LiveGate.paperWindow (some recovered) (dayStart 20)).2.met = true := by decide +kernel

lemma recovered_declines : Declines (LiveGate.paperMarks recovered) 10050000000 5050000000 := by
  have hmarks : LiveGate.paperMarks recovered = [10050000000, 5050000000, 10050000000] := by
    decide +kernel
  rw [hmarks]
  exact ⟨by decide, by decide⟩

/-- The gate takes a run that once lay by half below its peak, and the report of the day states a
maximum drawdown of zero. -/
theorem recovered_unseen :
    ((LiveGate.paperWindow (some recovered) (dayStart 20)).1.met = true ∧
      (LiveGate.paperWindow (some recovered) (dayStart 20)).2.met = true) ∧
      Declines (LiveGate.paperMarks recovered) 10050000000 5050000000 ∧
      (DailyReport.build 10000000000 recovered 0 0).maxDrawdownPct = 0 ∧
      ¬ DrawdownsMaximal 10000000000 recovered (dayStart 20) 0 0 := by
  refine ⟨⟨by decide +kernel, recovered_met⟩, recovered_declines, by decide +kernel, ?_⟩
  rintro ⟨hgate, -⟩
  have hlimit : LiveGate.maxDrawdownFraction < decline 10050000000 5050000000 := by
    norm_num [LiveGate.maxDrawdownFraction, decline]
  have hunmet := hgate.limit _ _ recovered_declines hlimit
  rw [recovered_met] at hunmet
  cases hunmet

end Drawdown

end PumpGrok
