import PumpGrok.Reporting.Realized
import PumpGrok.Risk.HaltClear

/-!
The daily loss on the realized basis. The engine's figure is the day's start less the cash and the
realized counter, and the cash has paid for what is open and been credited with what was realized:
the figure counts the cost of open positions as a loss, and what was realized twice.
-/

namespace PumpGrok

/-! ### The engine's figure -/

/-- The loss realized since the day's start. -/
def realizedLoss (state : LedgerState) : ℤ := -state.counters.realizedTodayLamports

/-- What the cash is below the day's start. -/
def cashGap (state : LedgerState) : ℤ := state.dayStartEquityLamports - state.cashLamports

/-- The loss that halts the day. -/
def lossThreshold (cfg : DeskConfig) (state : LedgerState) : ℚ :=
  state.dayStartEquityLamports * cfg.budget.dailyLossHaltFraction

/-- The engine finds a daily-loss breach in a folded state. -/
def DetectsDailyLoss (cfg : DeskConfig) (state : LedgerState) (ts : ℤ) (source : EventSource)
    (st : LedgerStore) : Prop :=
  (detectBreach cfg state (equityForHalts cfg state) ts source st).1 = .ok (some .dailyLoss)

/-- It finds one exactly when the realized loss has reached the threshold. -/
def MeasuresRealized (cfg : DeskConfig) (state : LedgerState) (ts : ℤ) (source : EventSource)
    (st : LedgerStore) : Prop :=
  DetectsDailyLoss cfg state ts source st ↔ lossThreshold cfg state ≤ realizedLoss state

/-- No threshold stands within the gap's width of the realized loss: above it where the cash is
below the day's start, at or below it where the cash is above. -/
structure ClearOfGap (cfg : DeskConfig) (state : LedgerState) : Prop where
  above : ¬ (lossThreshold cfg state - cashGap state ≤ realizedLoss state ∧
    (realizedLoss state : ℚ) < lossThreshold cfg state)
  below : ¬ (lossThreshold cfg state ≤ realizedLoss state ∧
    (realizedLoss state : ℚ) < lossThreshold cfg state - cashGap state)

/-- Where a breach is looked for, the threshold is clear of the gap; on a day that was cleared, or
that started with nothing, it is not reached. -/
def MeasuredWhen (cfg : DeskConfig) (state : LedgerState) (ts : ℤ) (st : LedgerStore) : Prop :=
  if clearedToday st.read (utcDay ts) = true ∨ state.dayStartEquityLamports ≤ 0 then
    (realizedLoss state : ℚ) < lossThreshold cfg state
  else ClearOfGap cfg state

section Basis

variable {cfg : DeskConfig} {state : LedgerState}

/-- On the realized basis the engine's figure is the realized loss and the gap. -/
lemma dayLoss_realized (h : cfg.limits.dailyLossBasis = .realized) :
    dayLoss cfg state = realizedLoss state + cashGap state := by
  unfold dayLoss equityForHalts realizedLoss cashGap
  rw [if_pos h]
  ring

lemma detects_iff (ts : ℤ) (source : EventSource) (st : LedgerStore) :
    DetectsDailyLoss cfg state ts source st ↔
      ¬ (clearedToday st.read (utcDay ts) = true ∨ state.dayStartEquityLamports ≤ 0) ∧
        lossThreshold cfg state ≤ dayLoss cfg state := by
  have hrecorded : ∀ row r, ((do
      appendHalt row
      pure (some r) : Prog LedgerStore Exc (Option HaltReason)) st).1 = .ok (some r) := by
    intro row r
    rw [Prog.bind_run_ok (Prod.ext (appendHalt_ok row st) rfl)]
    rfl
  unfold DetectsDailyLoss detectBreach
  dsimp only
  generalize (if 0 < state.peakEquityLamports then _ else 0 : ℚ) = drawdown
  split_ifs with hc hd hl hdown
  · simp [hc]
  · simp [hd]
  · rw [hrecorded]
    simp only [true_iff]
    exact ⟨not_or.mpr ⟨hc, hd⟩, hl⟩
  · rw [hrecorded]
    simp only [Except.ok.injEq, Option.some.injEq, reduceCtorEq, false_iff, not_and]
    exact fun _ => hl
  · simp only [Except.ok.injEq, reduceCtorEq, false_iff, not_and]
    exact fun _ => hl

/-- **When the realized basis measures realized loss**: on a day that started with something and was
not cleared, exactly when the threshold is not within the gap between the cash and the day's start
of the realized loss. -/
theorem measures_realized_iff (h : cfg.limits.dailyLossBasis = .realized) (state : LedgerState)
    (ts : ℤ) (source : EventSource) (st : LedgerStore) :
    MeasuresRealized cfg state ts source st ↔ MeasuredWhen cfg state ts st := by
  unfold MeasuresRealized MeasuredWhen
  rw [detects_iff]
  split_ifs with hnone
  · simp only [hnone, not_true, false_and, false_iff, not_le]
  · have hloss : (dayLoss cfg state : ℚ) = realizedLoss state + cashGap state := by
      rw [dayLoss_realized h]
      push_cast
      rfl
    simp only [hnone, not_false_eq_true, true_and, hloss]
    constructor
    · intro hiff
      refine ⟨fun ⟨hgap, hlt⟩ => ?_, fun ⟨hle, hgap⟩ => ?_⟩
      · exact absurd (hiff.mp (by linarith)) (not_le.mpr hlt)
      · have := hiff.mpr hle
        linarith
    · rintro ⟨habove, hbelow⟩
      constructor
      · intro hle
        by_contra hlt
        exact habove ⟨by linarith, not_le.mp hlt⟩
      · intro hle
        by_contra hlt
        exact hbelow ⟨hle, by linarith [not_le.mp hlt]⟩

end Basis

/-! ### One position open, and partly sold -/

namespace LossBasis

open Sys

/-- The sample desk on the realized basis, with trades of up to a twentieth of the equity. -/
def config : DeskConfig :=
  { sampleConfig with
    budget :=
      { sampleConfig.budget with
        maxTradeFraction := 5 / 100
        trade_ge := sampleConfig.budget.token_ge
        trade_le := sampleConfig.budget.token_le }
    limits := { sampleConfig.limits with dailyLossBasis := .realized } }

/-- A buy of the sample desk's, of 0.5 SOL. -/
def buy : PlaceCall := sampleSized 500000000 (by norm_num)

/-- One mint bought, and nothing sold. -/
def opened : LedgerStore :=
  (Runs.after (step config) sampleStart (sampleReserves :: samplePlace 0 buy)).store

def state : LedgerState := replay (initialState 10000000000 0) opened.read

/-- The mint bought, and a part of it sold. -/
def sold : LedgerStore :=
  (Runs.after (step config) sampleStart
    (sampleReserves :: samplePlace 0 buy ++
      samplePlace 1 (sampleSell 'a' 2 1000000000000 sample_units_pos))).store

def soldState : LedgerState := replay (initialState 10000000000 0) sold.read

end LossBasis

/-- A position partly sold at a loss is measured as it is, its cost still below the threshold. -/
theorem measures_realized_sold :
    0 < openBasis LossBasis.soldState ∧ 0 < realizedLoss LossBasis.soldState ∧
      MeasuresRealized LossBasis.config LossBasis.soldState 0 .paper LossBasis.sold := by
  refine ⟨by decide +kernel, by decide +kernel, (measures_realized_iff rfl _ 0 .paper _).mpr ?_⟩
  unfold MeasuredWhen
  rw [if_neg (by decide +kernel)]
  exact ⟨by decide +kernel, by decide +kernel⟩

/-- An open position halts the day with nothing realized. -/
theorem open_cost_read_as_loss :
    LossBasis.state.counters.realizedTodayLamports = 0 ∧
      ¬ MeasuresRealized LossBasis.config LossBasis.state 0 .paper LossBasis.opened := by
  have hnone : LossBasis.state.counters.realizedTodayLamports = 0 := by decide +kernel
  refine ⟨hnone, fun h => ?_⟩
  have hdetects : DetectsDailyLoss LossBasis.config LossBasis.state 0 .paper LossBasis.opened := by
    unfold DetectsDailyLoss
    decide +kernel
  have hloss : lossThreshold LossBasis.config LossBasis.state ≤ realizedLoss LossBasis.state :=
    h.mp hdetects
  revert hloss
  decide +kernel

/-! ### On the first day -/

/-- **What the engine measures.** Before the first rollover of every run from an empty book: the
cost of the open positions and the fees of refused orders, less twice what was realized. -/
theorem realized_basis_counts (cfg : DeskConfig) (now e₀ day : ℤ) (killswitch : KillSwitch)
    (as : List Action) (hb : cfg.limits.dailyLossBasis = .realized)
    (hr : ∀ e ∈ (Runs.after (Sys.step cfg) (Sys.start now e₀ killswitch) as).store.read,
      e.payload.isRollover = false) :
    let es := (Runs.after (Sys.step cfg) (Sys.start now e₀ killswitch) as).store.read
    let state := replay (initialState e₀ day) es
    dayLoss cfg state =
      openBasis state + rejectionFees es - 2 * state.counters.realizedTodayLamports := by
  intro es state
  have hbooks : state.cashLamports + openBasis state =
      e₀ + slicesRealized (initialState e₀ day) es + closesRealized es - rejectionFees es :=
    Sys.cash_and_basis cfg now e₀ day killswitch as _ (List.prefix_refl _)
  have hcount : state.counters.realizedTodayLamports =
      0 + slicesRealized (initialState e₀ day) es + closesRealized es :=
    realized_since (initialState e₀ day) hr
  have hstart : state.dayStartEquityLamports = e₀ := dayStart_kept (initialState e₀ day) hr
  rw [dayLoss_realized hb, realizedLoss, cashGap, hstart]
  linarith

end PumpGrok
