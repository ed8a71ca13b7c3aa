import PumpGrok.Execution.Confirm

/-!
The buy pipeline: sizing at the decision reserves, the second pricing, and the fill rows.
-/

namespace PumpGrok

open World

/-- The liquidity floor, then the fill at the decision reserves. -/
def buySizing (cfg : DeskConfig) (c : PlaceCall) (decisionSize : ℤ) (curve0 : CurveSnapshot) :
    Prog World Exc BuyQuote :=
  if curve0.sLamports < liquidityFloor cfg decisionSize then
    refuse c.request (.step .belowLiquidityFloor)
      (.solFloor curve0.sLamports (liquidityFloor cfg decisionSize)) .accepted {}
      (c.ledgerSource cfg)
  else
    ofExcept do
      let filled := min decisionSize (fillCap cfg curve0.sLamports)
      let fraction ← decimalDiv filled decisionSize
      let venueFee := cfg.fees.venueFee filled
      let bps := slippageBps cfg c.request
      let out0 ← buyOut curve0.sLamports curve0.tUnits (filled - venueFee)
      pure
        { size := decisionSize
          filled := filled
          fraction := fraction
          venueFee := venueFee
          xNet := filled - venueFee
          slippageBps := bps
          out0 := out0
          threshold := out0 * (10000 - bps) / 10000 }

/-- Recompute the fill when the trade cap shrank during the wait. -/
def buyRecap (cfg : DeskConfig) (q : BuyQuote) (curve0 : CurveSnapshot) (capNow : Option ℤ) :
    Except Exc BuyQuote :=
  match capNow with
  | none => .ok q
  | some cap =>
    if q.filled ≤ cap then .ok q
    else do
      let venueFee := cfg.fees.venueFee cap
      let out0 ← buyOut curve0.sLamports curve0.tUnits (cap - venueFee)
      let fraction ← decimalDiv cap q.size
      pure
        { q with
          filled := cap
          fraction := fraction
          venueFee := venueFee
          xNet := cap - venueFee
          out0 := out0
          threshold := out0 * (10000 - q.slippageBps) / 10000 }

/-- Refuse when the second price is below the threshold; the failed transaction is paid for. -/
def buyGuardSlippage (cfg : DeskConfig) (c : PlaceCall) (order : ℕ) (q : BuyQuote) (out1 : ℤ) :
    Prog World Exc Unit :=
  if q.threshold ≤ out1 then pure ()
  else do
    discardInflight order
    refuse c.request .slippageExceeded (.confirmBelowThreshold out1 q.threshold) .confirming
      { orderId := some order
        quoteOut := q.out0
        threshold := q.threshold
        confirmOut := out1
        fees := cfg.fees.networkCost }
      (c.ledgerSource cfg)

/-- Realised slippage against the decision quote; zero when no worse. -/
def realisedSlippage (out0 out1 : ℤ) : ℤ :=
  if out1 < out0 ∧ out0 ≠ 0 then ((out0 - out1) * 10000).fdiv out0 else 0

/-- The figures of a buy fill. -/
structure BuyFigures where
  orderId : ℕ
  quote : BuyQuote
  curve0 : CurveSnapshot
  curve1 : CurveSnapshot
  latency : ℤ
  out1 : ℤ
  priceAvg : ℚ
  venueTxRef : ℕ

def BuyFigures.cashDebit (cfg : DeskConfig) (f : BuyFigures) : ℤ :=
  f.quote.filled + cfg.fees.networkCost

def buyFillRow (cfg : DeskConfig) (c : PlaceCall) (f : BuyFigures) (ts : ℤ) : Row where
  ts := ts
  source := c.ledgerSource cfg
  key := .fill f.orderId
  payload := .fillRecorded
    { orderId := f.orderId
      decisionId := some c.request.decisionId
      side := .buy
      mint := c.request.mint
      filledLamports := f.quote.filled
      filledUnits := f.out1
      filledFraction := f.quote.fraction
      priceAvg := f.priceAvg
      venueFeeLamports := f.quote.venueFee
      networkCostLamports := cfg.fees.networkCost
      cashDeltaLamports := -f.cashDebit cfg
      latency := f.latency
      venueTxRef := f.venueTxRef
      curveBefore := (f.curve0.sLamports, f.curve0.tUnits)
      curveAfter := (f.curve1.sLamports, f.curve1.tUnits)
      realisedSlippageBps := realisedSlippage f.quote.out0 f.out1 }

def buyPositionRow (cfg : DeskConfig) (c : PlaceCall) (f : BuyFigures) (ts : ℤ) : Row where
  ts := ts
  source := c.ledgerSource cfg
  key := .position f.orderId
  payload := .positionOpened
    { mint := c.request.mint
      priceEntry := f.priceAvg
      tokenUnits := f.out1
      costBasisLamports := f.cashDebit cfg
      openedTs := ts
      creator := c.creator
      ticketId := c.request.ticketId }

def buyFillRows (cfg : DeskConfig) (c : PlaceCall) (f : BuyFigures) (ts : ℤ) (held : Bool) :
    List Row :=
  if held then [buyFillRow cfg c f ts] else [buyFillRow cfg c f ts, buyPositionRow cfg c f ts]

/-- The fill a settled order returns. `stored` is the first row of its batch. -/
def buyFill (cfg : DeskConfig) (c : PlaceCall) (f : BuyFigures) (stored : List Event) : Fill where
  orderId := f.orderId
  decisionId := some c.request.decisionId
  status := if f.quote.filled = f.quote.size then .filled else .partially
  venueTxRef := f.venueTxRef
  filledLamports := f.quote.filled
  filledUnits := f.out1
  filledFraction := f.quote.fraction
  priceAvg := f.priceAvg
  realisedSlippageBps := realisedSlippage f.quote.out0 f.out1
  venueFeeLamports := f.quote.venueFee
  networkCostLamports := cfg.fees.networkCost
  ledgerSeq := (stored.head?.map Event.seq).getD 0

/-- What a settled order leaves in the adapter's memory. -/
def settleMemory (order : ℕ) (mint : Mint) (curve1 : CurveSnapshot) : Prog World Exc Unit := do
  let t ← now
  remember fun a =>
    { a with
      inflight := a.inflight.erase order
      lastPriceTs := a.lastPriceTs.set mint t
      lastReserves := a.lastReserves.set mint (curve1.sLamports, curve1.tUnits) }

/-- The average price, the rows, and the fill. -/
def buySettle (cfg : DeskConfig) (c : PlaceCall) (p : Placed) (q : BuyQuote)
    (curve1 : CurveSnapshot) (out1 : ℤ) : Prog World Exc Fill := do
  let priceAvg ← ofExcept (decimalDiv q.xNet out1)
  let ref ← ulid
  let state ← fold cfg
  let ts ← now
  let f : BuyFigures :=
    { orderId := p.orderId
      quote := q
      curve0 := p.curve0
      curve1 := curve1
      latency := p.latency
      out1 := out1
      priceAvg := priceAvg
      venueTxRef := ref }
  let stored ← onStore
    (LedgerStore.appendBatch
      (buyFillRows cfg c f ts (heldPosition state c.request.mint).isSome))
  settleMemory p.orderId c.request.mint curve1
  pure (buyFill cfg c f stored)

/-- A buy from its second reading to its end. -/
def buyConfirm (cfg : DeskConfig) (c : PlaceCall) (p : Placed) (quote : BuyQuote)
    (curve1 : Option CurveSnapshot) : Prog World Exc Fill := do
  let curve ← confirmCurve cfg c p.orderId curve1
  let recheck ← confirmRecheck cfg c p.orderId p.dropped
  let q ← ofExcept (buyRecap cfg quote p.curve0 recheck.sizeLamports)
  let out1 ← ofExcept (buyOut curve.sLamports curve.tUnits q.xNet)
  buyGuardSlippage cfg c p.orderId q out1
  buySettle cfg c p q curve out1

end PumpGrok
