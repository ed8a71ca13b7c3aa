import PumpGrok.Lib.Decimals
import PumpGrok.Core.Types

/-!
Position exit rules: the stop loss first, then profit, then the trailing stop, then time. Prices
are integers scaled by `priceScale`, times integer microseconds.
-/

namespace PumpGrok

def priceScale : ℕ := 10 ^ 9

/-- A quote in lamports for each token, as a scaled price. -/
def scaledPrice (lamportsPerToken : ℚ) : ℤ := Decimals.roundHalfUp (lamportsPerToken * priceScale)

/-- Exit-rule thresholds; zero turns a rule off. -/
structure ExitsSettings where
  stopLossPct : ℚ≥0 := 30
  takeProfitPct : ℚ≥0 := 120
  trailingStopPct : ℚ≥0 := 35
  maxHoldSeconds : ℚ≥0 := 3600
  deriving DecidableEq

/-- An open position as the exit rules see it. -/
structure ExitPosition where
  mint : Mint
  entryPrice : ℤ := 0
  peakPrice : ℤ := 0
  tokenAmount : ℤ := 0
  openedAt : ℤ := 0
  deriving DecidableEq

inductive SignalDetail where
  | fromEntry (change : ℚ)
  | fromPeak (drawdown change : ℚ)
  | inPosition (seconds change : ℚ)
  deriving DecidableEq

/-- Why to close a position, and what justifies it. -/
structure ExitSignal where
  reason : ExitRule
  detail : SignalDetail
  deriving DecidableEq

namespace ExitPosition

/-- The change from entry in percent. -/
def pnlPct (position : ExitPosition) (price : ℤ) : ℚ :=
  if position.entryPrice ≤ 0 then 0
  else ((price : ℚ) - position.entryPrice) / position.entryPrice * 100

/-- Whether to exit and why. -/
def exitSignal (position : ExitPosition) (price : ℤ) (cfg : ExitsSettings) (now : ℤ) :
    Option ExitSignal :=
  if price ≤ 0 ∨ position.entryPrice ≤ 0 then none
  else
    let change := position.pnlPct price
    let peak := max position.peakPrice price
    let drawdown : ℚ := ((peak : ℚ) - price) / peak * 100
    let held : ℚ := ((now : ℚ) - position.openedAt) / 1000000
    if cfg.stopLossPct ≠ 0 ∧ cfg.stopLossPct ≤ -change then
      some { reason := .stopLoss, detail := .fromEntry change }
    else if cfg.takeProfitPct ≠ 0 ∧ cfg.takeProfitPct ≤ change then
      some { reason := .takeProfit, detail := .fromEntry change }
    -- below entry the stop loss owns the drawdown
    else if cfg.trailingStopPct ≠ 0 ∧ position.entryPrice < peak ∧
        cfg.trailingStopPct ≤ drawdown then
      some { reason := .trailingStop, detail := .fromPeak drawdown (position.pnlPct peak) }
    else if cfg.maxHoldSeconds ≠ 0 ∧ position.openedAt ≠ 0 ∧ cfg.maxHoldSeconds ≤ held then
      some { reason := .maxHold, detail := .inPosition held change }
    else none

def ratchet (position : ExitPosition) (price : ℤ) : ExitPosition :=
  { position with peakPrice := max position.peakPrice price }

/-- Ratchet the peak, then evaluate. -/
def applyPrice (position : ExitPosition) (price : ℤ) (cfg : ExitsSettings) (now : ℤ) :
    ExitPosition × Option ExitSignal :=
  (position.ratchet price, (position.ratchet price).exitSignal price cfg now)

end ExitPosition

/-- The peak to track after a restart, from the ledger fold. -/
def restorePeak (entryPrice : ℤ) (ledgerPeak : ℚ) : ℤ := max entryPrice (scaledPrice ledgerPeak)

/-! ### What decides a signal -/

namespace ExitPosition

variable {position : ExitPosition} {price now : ℤ} {cfg : ExitsSettings}

lemma exitSignal_worthless (h : position.entryPrice ≤ 0) :
    position.exitSignal price cfg now = none := by
  unfold exitSignal
  rw [if_pos (.inr h)]

/-- Thresholds that leave one trailing stop on. -/
def trailingOnly (pct : ℚ≥0) : ExitsSettings :=
  { stopLossPct := 0, takeProfitPct := 0, trailingStopPct := pct, maxHoldSeconds := 0 }

/-- A lone trailing stop fires by the drawdown from the peak. -/
lemma exitSignal_trailing {pct : ℚ≥0} (hentry : 0 < position.entryPrice)
    (hprice : 0 < price) (hpct : pct ≠ 0) :
    (position.exitSignal price (trailingOnly pct) now).isSome ↔
      position.entryPrice < max position.peakPrice price ∧
        (pct : ℚ) ≤ (((max position.peakPrice price : ℤ) : ℚ) - price) /
          (max position.peakPrice price : ℤ) * 100 := by
  have hopen : ¬ (price ≤ 0 ∨ position.entryPrice ≤ 0) := by omega
  unfold exitSignal trailingOnly
  rw [if_neg hopen]
  simp only [ne_eq, not_true_eq_false, false_and, if_false, hpct, not_false_eq_true, true_and]
  split_ifs with h
  · exact iff_of_true rfl h
  · exact iff_of_false Bool.false_ne_true h

end ExitPosition

/-! ### Scaled prices -/

lemma scaledPrice_mono {x y : ℚ} (h : x ≤ y) : scaledPrice x ≤ scaledPrice y :=
  Decimals.roundHalfUp_mono (mul_le_mul_of_nonneg_right h (Nat.cast_nonneg _))

lemma scaledPrice_max (x y : ℚ) : scaledPrice (max x y) = max (scaledPrice x) (scaledPrice y) :=
  Monotone.map_max fun _ _ h => scaledPrice_mono h

lemma entry_le_restorePeak (entryPrice : ℤ) (ledgerPeak : ℚ) :
    entryPrice ≤ restorePeak entryPrice ledgerPeak := le_max_left _ _

lemma restorePeak_mono (entryPrice : ℤ) {x y : ℚ} (h : x ≤ y) :
    restorePeak entryPrice x ≤ restorePeak entryPrice y := max_le_max le_rfl (scaledPrice_mono h)

end PumpGrok
