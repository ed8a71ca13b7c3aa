import PumpGrok.Execution.Buy

/-!
The sell pipeline: target sizing, the holding and the price at the second reading, and the fill
rows.
-/

namespace PumpGrok

open World

/-- The units asked for and the units to fill; the fill is capped by the curve and the
holding. -/
def sellTargets (cfg : DeskConfig) (c : PlaceCall) (curve0 : CurveSnapshot) :
    Prog World Exc (ℤ × ℤ) := do
  let state ← fold cfg
  let units := sellUnits c.request curve0
  let held := openUnits state c.request.mint
  if held ≤ 0 then
    refuse c.request .noPosition (.needsOpenPosition c.request.mint) .accepted {}
      (c.ledgerSource cfg)
  else if units ≤ 0 then
    refuse c.request (.step .belowLiquidityFloor) (.derivedUnitsZero curve0.tUnits) .accepted {}
      (c.ledgerSource cfg)
  else if curve0.tUnits < liquidityFloor cfg units then
    refuse c.request (.step .belowLiquidityFloor)
      (.tokenFloor curve0.tUnits (liquidityFloor cfg units)) .accepted {} (c.ledgerSource cfg)
  else pure (units, min (min units (fillCap cfg curve0.tUnits)) held)

def planSell (cfg : DeskConfig) (r : OrderRequest) (curve0 : CurveSnapshot)
    (units filledUnits : ℤ) : Except Exc SellPlan := do
  let fraction ← decimalDiv filledUnits units
  let gross0 ← sellOut curve0.sLamports curve0.tUnits filledUnits
  let out0 := gross0 - cfg.fees.venueFee gross0
  pure
    { units := units
      filledUnits := filledUnits
      fraction := fraction
      out0 := out0
      threshold := out0 * (10000 - slippageBps cfg r) / 10000 }

/-- The sell still fits the holding. A concurrent exit that committed first refuses it. -/
def sellHolding (cfg : DeskConfig) (c : PlaceCall) (p : Placed) (plan : SellPlan) :
    Prog World Exc (Option PositionView) := do
  let state ← fold cfg
  let held := ((heldPosition state c.request.mint).map (·.tokenUnits)).getD 0
  if held < plan.filledUnits then
    confirmRefuse cfg c p.orderId .noPosition
      (.exceedsHolding c.request.mint plan.filledUnits held)
  else pure (state.positions.get c.request.mint)

/-- The price at the second reading, gross and net, or a refusal. -/
def sellSlippage (cfg : DeskConfig) (c : PlaceCall) (p : Placed) (plan : SellPlan)
    (curve1 : CurveSnapshot) : Prog World Exc (ℤ × ℤ) := do
  let gross1 ← ofExcept (sellOut curve1.sLamports curve1.tUnits plan.filledUnits)
  let out1 := gross1 - cfg.fees.venueFee gross1
  if out1 < plan.threshold then do
    discardInflight p.orderId
    refuse c.request .slippageExceeded (.confirmBelowThreshold out1 plan.threshold) .confirming
      { orderId := some p.orderId
        quoteOut := plan.out0
        threshold := plan.threshold
        confirmOut := out1
        fees := cfg.fees.networkCost }
      (c.ledgerSource cfg)
  else pure (gross1, out1)

structure SellFigures where
  fraction : ℚ
  gross1 : ℤ
  proceeds : ℤ
  networkCost : ℤ
  venueFee : ℤ
  priceAvg : ℚ
  slipped : ℤ
  venueTxRef : ℕ

def sellFigures (cfg : DeskConfig) (plan : SellPlan) (gross1 out1 : ℤ) :
    Prog World Exc SellFigures := do
  let priceAvg ← ofExcept (decimalDiv gross1 plan.filledUnits)
  let ref ← ulid
  pure
    { fraction := plan.fraction
      gross1 := gross1
      proceeds := out1 - cfg.fees.networkCost
      networkCost := cfg.fees.networkCost
      venueFee := cfg.fees.venueFee gross1
      priceAvg := priceAvg
      slipped := realisedSlippage plan.out0 out1
      venueTxRef := ref }

def sellFillRow (cfg : DeskConfig) (c : PlaceCall) (p : Placed) (plan : SellPlan)
    (curve1 : CurveSnapshot) (f : SellFigures) (ts : ℤ) : Row where
  ts := ts
  source := c.ledgerSource cfg
  key := .fill p.orderId
  payload := .fillRecorded
    { orderId := p.orderId
      decisionId := some c.request.decisionId
      side := .sell
      mint := c.request.mint
      filledLamports := f.proceeds
      filledUnits := plan.filledUnits
      filledFraction := f.fraction
      priceAvg := f.priceAvg
      venueFeeLamports := f.venueFee
      networkCostLamports := f.networkCost
      cashDeltaLamports := f.proceeds
      latency := p.latency
      venueTxRef := f.venueTxRef
      curveBefore := (p.curve0.sLamports, p.curve0.tUnits)
      curveAfter := (curve1.sLamports, curve1.tUnits)
      realisedSlippageBps := f.slipped }

/-- The profit as a fraction of the cost basis; zero without one. -/
def pnlFraction (realized basis : ℤ) : ℚ := if basis = 0 then 0 else realized / basis

/-- Whole seconds since the opening, never negative. -/
def holdSeconds (now opened : ℤ) : ℤ := max ((now - opened).tdiv 1000000) 0

def closeReason : Option ExitReason → ExitReason
  | none | some (.other []) => .manual
  | some r => r

def positionClosedRow (cfg : DeskConfig) (c : PlaceCall) (p : Placed)
    (pos : PositionView) (f : SellFigures) (ts : ℤ) : Row where
  ts := ts
  source := c.ledgerSource cfg
  key := .close p.orderId
  payload := .positionClosed
    { mint := c.request.mint
      priceExit := f.priceAvg
      proceedsLamports := f.proceeds
      realizedPnlLamports := f.proceeds - pos.costBasisLamports
      reason := closeReason c.reason
      pnlPct := pnlFraction (f.proceeds - pos.costBasisLamports) pos.costBasisLamports
      holdSeconds := holdSeconds ts pos.openedTs
      venueTxRef := f.venueTxRef }

/-- The fill, and the close when it empties the holding. -/
def sellRows (cfg : DeskConfig) (c : PlaceCall) (p : Placed) (plan : SellPlan)
    (curve1 : CurveSnapshot) (pos : Option PositionView) (f : SellFigures) (ts : ℤ) : List Row :=
  match pos with
  | none => [sellFillRow cfg c p plan curve1 f ts]
  | some v =>
    if 0 < v.tokenUnits ∧ v.tokenUnits ≤ plan.filledUnits then
      [sellFillRow cfg c p plan curve1 f ts, positionClosedRow cfg c p v f ts]
    else [sellFillRow cfg c p plan curve1 f ts]

def sellFill (c : PlaceCall) (p : Placed) (plan : SellPlan) (f : SellFigures)
    (stored : List Event) :
    Fill where
  orderId := p.orderId
  decisionId := some c.request.decisionId
  status := if plan.filledUnits = plan.units then .filled else .partially
  venueTxRef := f.venueTxRef
  filledLamports := f.proceeds
  filledUnits := plan.filledUnits
  filledFraction := f.fraction
  priceAvg := f.priceAvg
  realisedSlippageBps := f.slipped
  venueFeeLamports := f.venueFee
  networkCostLamports := f.networkCost
  ledgerSeq := (stored.head?.map Event.seq).getD 0

def sellSettle (cfg : DeskConfig) (c : PlaceCall) (p : Placed) (plan : SellPlan)
    (curve1 : CurveSnapshot) (pos : Option PositionView) (f : SellFigures) :
    Prog World Exc Fill := do
  let ts ← now
  let stored ← onStore (LedgerStore.appendBatch (sellRows cfg c p plan curve1 pos f ts))
  settleMemory p.orderId c.request.mint curve1
  pure (sellFill c p plan f stored)

/-- A sell from its second reading to its end. -/
def sellConfirm (cfg : DeskConfig) (c : PlaceCall) (p : Placed) (plan : SellPlan)
    (curve1 : Option CurveSnapshot) : Prog World Exc Fill := do
  let curve ← confirmCurve cfg c p.orderId curve1
  let _ ← confirmRecheck cfg c p.orderId p.dropped
  let pos ← sellHolding cfg c p plan
  let (gross1, out1) ← sellSlippage cfg c p plan curve
  let f ← sellFigures cfg plan gross1 out1
  sellSettle cfg c p plan curve pos f

end PumpGrok
