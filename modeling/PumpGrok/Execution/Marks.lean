import PumpGrok.Execution.Sell

/-!
Marks and forced closes: the two mark calls, with their state read before the curve is awaited,
and the closes on graduation, on blindness and by the system.
-/

namespace PumpGrok

open World

/-! ### Marks -/

/-- Liquidation value of a holding: net of the venue fee, and the fee. -/
def liquidation (fees : FeeModel) (curve : CurveSnapshot) (units : ℤ) : Except Exc (ℤ × ℤ) := do
  let gross ← sellOut curve.sLamports curve.tUnits units
  pure (gross - fees.venueFee gross, fees.venueFee gross)

/-- The position a single mark is for, if it can be marked. -/
def markable (state : LedgerState) (mint : Mint) : Option PositionView :=
  (state.positions.get mint).filter fun p => 0 < p.tokenUnits && !p.mtmFrozen

/-- The open positions other than one, by a measure. -/
def sumOthers (state : LedgerState) (mint : Mint) (f : PositionView → ℤ) : ℤ :=
  ((state.positions.entries.filter fun x => x.1 ≠ mint && 0 < x.2.tokenUnits).map
    fun x => f x.2).sum

def markRow (state : LedgerState) (mint : Mint) (pos : PositionView) (value venue : ℤ)
    (price : ℚ) (source : EventSource) (ts : ℤ) : Row where
  ts := ts
  source := source
  key := .mtm mint ts
  payload := .markToMarket
    { tsSource := ts
      cashLamports := state.cashLamports
      equityLamports := state.cashLamports + (value + sumOthers state mint (·.lastMtmLamports))
      unrealizedLamports :=
        value + sumOthers state mint (·.lastMtmLamports) -
          (pos.costBasisLamports + sumOthers state mint (·.costBasisLamports))
      prices :=
        [(mint, { mtmLamports := value, venueFeeLamports := venue, spot := price, ts := none })] }

/-- Mark one position: what follows its curve reading. `state` and `pos` are those read before
it. -/
def markToMarket (cfg : DeskConfig) (mint : Mint) (source : EventSource) (state : LedgerState)
    (pos : PositionView) (curve : Option CurveSnapshot) : Prog World Exc (Option Event) :=
  match curve with
  | none => pure none
  | some curve =>
    if curve.complete then pure none
    else do
      let (value, venue) ← ofExcept (liquidation cfg.fees curve pos.tokenUnits)
      let price ← ofExcept (spot curve.sLamports curve.tUnits)
      let ts ← now
      let row ← onStore (LedgerStore.append (markRow state mint pos value venue price source ts))
      remember fun a =>
        { a with
          lastPriceTs := a.lastPriceTs.set mint ts
          lastReserves := a.lastReserves.set mint (curve.sLamports, curve.tUnits) }
      pure (some row)

/-- The positions a mark of the whole book is for. -/
def markableAll (state : LedgerState) : List (Mint × PositionView) :=
  state.positions.entries.filter fun x => 0 < x.2.tokenUnits && !x.2.mtmFrozen

/-- A book mark between two readings: what was read when it began and what it has priced. -/
structure BookMark where
  source : EventSource
  state : LedgerState
  held : List (Mint × PositionView)
  startedAt : ℤ
  marks : List (Mint × Mark) := []
  values : List (Mint × ℤ) := []
  pending : List (Mint × PositionView)

/-- Price one held mint; a mint with no usable curve keeps its last mark. -/
def priceOne (cfg : DeskConfig) (b : BookMark) (mint : Mint) (pos : PositionView)
    (rest : List (Mint × PositionView)) (curve : Option CurveSnapshot) : Prog World Exc BookMark :=
  match curve.filter fun c => !c.complete with
  | none =>
    pure { b with values := b.values ++ [(mint, pos.lastMtmLamports)], pending := rest }
  | some curve => do
    let (value, venue) ← ofExcept (liquidation cfg.fees curve pos.tokenUnits)
    let price ← ofExcept (spot curve.sLamports curve.tUnits)
    let recorded := curve.ts.getD b.startedAt
    let mark : Mark :=
      { mtmLamports := value, venueFeeLamports := venue, spot := price, ts := some recorded }
    remember fun a =>
      { a with
        lastReserves := a.lastReserves.set mint (curve.sLamports, curve.tUnits)
        lastPriceTs := a.lastPriceTs.set mint recorded }
    pure
      { b with
        values := b.values ++ [(mint, value)]
        marks := b.marks ++ [(mint, mark)]
        pending := rest }

def bookKey (b : BookMark) (ts : ℤ) : Key :=
  .mtmBook ts b.marks (b.held.map fun x => (x.1, x.2.costBasisLamports))

def bookRow (b : BookMark) (ts : ℤ) : Row where
  ts := ts
  source := b.source
  key := bookKey b ts
  payload := .markToMarket
    { tsSource := ts
      cashLamports := b.state.cashLamports
      equityLamports := b.state.cashLamports + (b.values.map Prod.snd).sum
      unrealizedLamports :=
        (b.values.map Prod.snd).sum - (b.held.map fun x => x.2.costBasisLamports).sum
      prices := b.marks }

/-- One row for the whole book, unless this priced state is on the ledger. -/
def appendMarkRow (b : BookMark) : Prog World Exc (Option Event) := do
  let ts ← now
  let known ← Prog.read fun w => (w.desk.store.byKey (bookKey b ts)).isSome
  if b.marks = [] ∨ known = true then pure none
  else do
    let row ← onStore (LedgerStore.append (bookRow b ts))
    pure (some row)

/-! ### Forced closes -/

/-- Proceeds, venue fee and network cost of a close. -/
structure Valued where
  proceeds : ℤ
  venueFee : ℤ
  networkCost : ℤ

def curveExit (fees : FeeModel) (s t units : ℤ) : Except Exc Valued := do
  let gross ← sellOut s t units
  pure
    { proceeds := gross - fees.venueFee gross - fees.networkCost
      venueFee := fees.venueFee gross
      networkCost := fees.networkCost }

/-- The last mark, else the last reserves. A mark is net of the venue fee already. -/
def lastGoodValue (cfg : DeskConfig) (mint : Mint) (pos : PositionView) (a : Adapter) :
    Except Exc (Option Valued) :=
  if 0 < pos.lastMtmLamports then
    .ok (some
      { proceeds := pos.lastMtmLamports - cfg.fees.networkCost
        venueFee := pos.lastMtmVenueFeeLamports
        networkCost := cfg.fees.networkCost })
  else
    match a.lastReserves.get mint with
    | none => .ok none
    | some (s, t) => (curveExit cfg.fees s t pos.tokenUnits).map some

/-- The live curve when usable, else the last good value. -/
def liveValue (cfg : DeskConfig) (mint : Mint) (pos : PositionView)
    (curve : Option CurveSnapshot) (a : Adapter) : Except Exc (Option Valued) :=
  match curve.filter fun c => !c.complete with
  | some c => (curveExit cfg.fees c.sLamports c.tUnits pos.tokenUnits).map some
  | none => lastGoodValue cfg mint pos a

/-- The figures of one forced close. -/
structure ForceClose where
  mint : Mint
  reason : ExitReason
  valued : Valued
  source : EventSource
  ticketId : Option TicketId

def forceCloseFillRow (f : ForceClose) (pos : PositionView) (order ref : ℕ) (ts : ℤ) : Row where
  ts := ts
  source := f.source
  key := .fill order
  payload := .fillRecorded
    { orderId := order
      decisionId := none
      side := .sell
      mint := f.mint
      filledLamports := f.valued.proceeds
      filledUnits := pos.tokenUnits
      filledFraction := 1
      priceAvg := f.valued.proceeds / pos.tokenUnits
      venueFeeLamports := f.valued.venueFee
      networkCostLamports := f.valued.networkCost
      cashDeltaLamports := f.valued.proceeds
      venueTxRef := ref }

def forceClosePositionRow (f : ForceClose) (pos : PositionView) (ref : ℕ) (ts : ℤ) : Row where
  ts := ts
  source := f.source
  key := .forceClose f.reason f.mint ts
  payload := .positionClosed
    { mint := f.mint
      priceExit := f.valued.proceeds / pos.tokenUnits
      proceedsLamports := f.valued.proceeds
      realizedPnlLamports := f.valued.proceeds - pos.costBasisLamports
      reason := f.reason
      pnlPct := pnlFraction (f.valued.proceeds - pos.costBasisLamports) pos.costBasisLamports
      holdSeconds := holdSeconds ts pos.openedTs
      venueTxRef := ref }

def forceCloseEscalationRow (f : ForceClose) (ts : ℤ) : Row where
  ts := ts
  source := f.source
  key := .escalation f.reason f.mint ts
  payload := .escalation
    { kind := .exit f.reason
      seat := .exit
      detail := .frozen f.reason f.mint f.valued.proceeds f.ticketId }

def forceCloseRows (f : ForceClose) (pos : PositionView) (order ref : ℕ) (ts : ℤ) : List Row :=
  [forceCloseFillRow f pos order ref ts, forceClosePositionRow f pos ref ts,
    forceCloseEscalationRow f ts]

/-- Close the whole holding at a value: a fill, a close and an escalation. -/
def forceClose (cfg : DeskConfig) (f : ForceClose) : Prog World Exc (Option Event) := do
  let state ← fold cfg
  match heldPosition state f.mint with
  | none => pure none
  | some pos => do
    let ref ← ulid
    let order ← ulid
    let ts ← now
    let stored ← onStore (LedgerStore.appendBatch (forceCloseRows f pos order ref ts))
    remember fun a =>
      { a with
        frozenMarks := a.frozenMarks.set f.mint f.valued.proceeds
        lastPriceTs := a.lastPriceTs.erase f.mint }
    pure stored[1]?

/-- Close at the last reserves before graduation. -/
def closeOnGraduation (cfg : DeskConfig) (mint : Mint) (lastS lastT : ℤ) (source : EventSource) :
    Prog World Exc (Option Event) := do
  let state ← fold cfg
  match heldPosition state mint with
  | none => pure none
  | some pos => do
    let valued ← ofExcept (curveExit cfg.fees lastS lastT pos.tokenUnits)
    forceClose cfg
      { mint := mint, reason := .graduated, valued := valued, source := source, ticketId := none }

/-- The time of the last good price: the adapter's own, else the ledger mark's. -/
def lastPrice (a : Adapter) (mint : Mint) (pos : PositionView) : Option ℤ :=
  match a.lastPriceTs.get mint with
  | some t => some t
  | none => pos.lastMtmTs

/-- Close at the last good value after too long without a price. -/
def checkBlind (cfg : DeskConfig) (mint : Mint) (source : EventSource) :
    Prog World Exc (Option Event) := do
  let state ← fold cfg
  let a ← Prog.read World.mem
  let t ← now
  match heldPosition state mint with
  | none => pure none
  | some pos =>
    if (lastPrice a mint pos).all fun last => t - last ≤ cfg.limits.blindMax then pure none
    else do
      let valued ← ofExcept (lastGoodValue cfg mint pos a)
      match valued with
      | none => pure none
      | some v =>
        forceClose cfg
          { mint := mint, reason := .blindFlatten, valued := v, source := source,
            ticketId := none }

inductive CloseStatus where
  | closed
  | noPosition
  | noMark
  | ledgerInconsistent
  deriving DecidableEq

/-- The system close, before its curve reading: only its reasons, only a ledger that
verifies. -/
def closeStart (reason : ExitReason) : Prog World Exc (Option CloseStatus) := do
  if reason.isSystem = false then Prog.raise .valueError
  else fun w =>
    match onStore LedgerStore.verify w with
    | (.ok _, w') => (.ok none, w')
    | (.error _, w') => (.ok (some .ledgerInconsistent), w')

/-- The system close, from its curve reading on. -/
def closePosition (cfg : DeskConfig) (mint : Mint) (ticketId : TicketId) (reason : ExitReason)
    (curve : Option CurveSnapshot) : Prog World Exc CloseStatus := do
  let state ← fold cfg
  let a ← Prog.read World.mem
  match heldPosition state mint with
  | none => pure .noPosition
  | some pos => do
    let valued ← ofExcept (liveValue cfg mint pos curve a)
    match valued with
    | none => pure .noMark
    | some v => do
      let row ← forceClose cfg
        { mint := mint
          reason := reason
          valued := v
          source := cfg.source
          ticketId := if ticketId = [] then none else some ticketId }
      pure (if row.isSome then .closed else .noPosition)

end PumpGrok
