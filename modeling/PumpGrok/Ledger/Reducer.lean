import PumpGrok.Ledger.Store
import PumpGrok.Lib.Dict

/-!
The ledger fold: one handler for each event type, and the state of a whole ledger.
-/

namespace PumpGrok

/-- One open position. -/
structure PositionView where
  mint : Mint
  creator : Creator := []
  ticketId : TicketId := []
  priceEntry : ℚ := 0
  pricePeak : ℚ := 0
  tokenUnits : ℤ := 0
  costBasisLamports : ℤ := 0
  feesLamports : ℤ := 0
  openedTs : ℤ := 0
  lastMtmLamports : ℤ := 0
  lastMtmVenueFeeLamports : ℤ := 0
  lastMtmTs : Option ℤ := none
  mtmFrozen : Bool := false
  deriving DecidableEq

structure HaltView where
  active : Bool := false
  reason : Option HaltReason := none
  since : Option ℤ := none

structure KillSwitchView where
  active : Bool := false
  origin : Option KillOrigin := none
  since : Option ℤ := none
  flattenRequested : Bool := false

structure BreakerView where
  isOpen : Bool := false
  since : Option ℤ := none

structure ApprovalView where
  kind : ApprovalKind
  consumed : Bool := false

structure CountersView where
  tradesToday : ℤ := 0
  rejectedToday : Dict Reason ℕ := ∅
  feesTodayLamports : ℤ := 0
  realizedTodayLamports : ℤ := 0

structure LedgerState where
  seq : ℕ := 0
  dayUtc : ℤ
  dayStartEquityLamports : ℤ := 0
  peakEquityLamports : ℤ := 0
  cashLamports : ℤ := 0
  positions : Dict Mint PositionView := ∅
  halt : HaltView := {}
  killSwitch : KillSwitchView := {}
  breakers : Dict BreakerName BreakerView := ∅
  approvals : Dict ℕ ApprovalView := ∅
  counters : CountersView := {}
  lastMtmTs : Option ℤ := none

/-- The state before the first row: cash, day start and peak are the initial equity. -/
def initialState (initialEquity : ℤ) (day : ℤ) : LedgerState where
  dayUtc := day
  dayStartEquityLamports := initialEquity
  peakEquityLamports := initialEquity
  cashLamports := initialEquity

/-- The last mark, or the cost basis until there is one. -/
def positionValueLamports (pos : PositionView) : ℤ :=
  if pos.lastMtmTs.isSome then pos.lastMtmLamports else pos.costBasisLamports

/-- Cash plus the open positions at their values. -/
def equityLamports (state : LedgerState) : ℤ :=
  state.cashLamports +
    state.positions.total fun p => if 0 < p.tokenUnits then positionValueLamports p else 0

def trackPeak (state : LedgerState) : LedgerState :=
  if equityLamports state > state.peakEquityLamports then
    { state with peakEquityLamports := equityLamports state }
  else state

def onPositionOpened (state : LedgerState) (p : PositionOpened) : LedgerState :=
  if p.mint = [] then state
  else
    trackPeak { state with
      positions := state.positions.set p.mint
        { mint := p.mint
          creator := p.creator
          ticketId := p.ticketId
          priceEntry := p.priceEntry
          pricePeak := p.priceEntry
          tokenUnits := p.tokenUnits
          costBasisLamports := p.costBasisLamports
          openedTs := p.openedTs } }

def onPositionClosed (state : LedgerState) (p : PositionClosed) : LedgerState :=
  trackPeak { state with
    positions := state.positions.erase p.mint
    counters := { state.counters with
      realizedTodayLamports := state.counters.realizedTodayLamports + p.realizedPnlLamports } }

/-- A buy fill of a held mint adds its units and its debit. -/
def buyInto (pos : PositionView) (p : FillRecorded) : PositionView :=
  { pos with
    tokenUnits := pos.tokenUnits + p.filledUnits
    costBasisLamports := pos.costBasisLamports - min p.cashDeltaLamports 0
    feesLamports := pos.feesLamports + (p.venueFeeLamports + p.networkCostLamports) }

/-- The part of the cost basis a sale of `filled` units takes with it. -/
def basisReduction (pos : PositionView) (filled : ℤ) : ℤ :=
  pos.costBasisLamports * filled / pos.tokenUnits

/-- A sell fill keeps the pro-rata part of the basis, and of the mark at most the last mark
less the proceeds. -/
def sellFrom (pos : PositionView) (p : FillRecorded) : PositionView :=
  let remaining := pos.tokenUnits - p.filledUnits
  let received := p.cashDeltaLamports + p.networkCostLamports
  let share := pos.lastMtmLamports * remaining / pos.tokenUnits
  { pos with
    tokenUnits := remaining
    costBasisLamports := pos.costBasisLamports - basisReduction pos p.filledUnits
    lastMtmLamports := min share (max (pos.lastMtmLamports - received) 0)
    lastMtmVenueFeeLamports := pos.lastMtmVenueFeeLamports * remaining / pos.tokenUnits }

/-- What a sell fill of a held mint realizes: its slice when units remain, nothing when the
closing row will book the rest. -/
def sliceRealized (pos : PositionView) (p : FillRecorded) : ℤ :=
  if 0 < pos.tokenUnits - p.filledUnits then
    p.cashDeltaLamports - basisReduction pos p.filledUnits
  else 0

def onFill (state : LedgerState) (p : FillRecorded) : LedgerState :=
  let counters := { state.counters with
    feesTodayLamports :=
      state.counters.feesTodayLamports + (p.venueFeeLamports + p.networkCostLamports)
    tradesToday := state.counters.tradesToday + if p.side = .buy then 1 else 0 }
  let paid := { state with
    cashLamports := state.cashLamports + p.cashDeltaLamports, counters := counters }
  trackPeak <|
    match state.positions.get p.mint with
    | none => paid
    | some pos =>
      if p.side = .buy then
        { paid with positions := state.positions.set p.mint (buyInto pos p) }
      else if 0 < pos.tokenUnits ∧ 0 < p.filledUnits then
        { paid with
          positions := state.positions.set p.mint (sellFrom pos p)
          counters := { counters with
            realizedTodayLamports := counters.realizedTodayLamports + sliceRealized pos p } }
      else paid

def onRejected (state : LedgerState) (p : OrderRejected) : LedgerState :=
  { state with
    cashLamports := state.cashLamports - p.feesLamports
    counters := { state.counters with
      rejectedToday := state.counters.rejectedToday.set p.reason
        ((state.counters.rejectedToday.get p.reason).getD 0 + 1)
      feesTodayLamports := state.counters.feesTodayLamports + p.feesLamports } }

/-- One entry of a mark row; the row's time stands in for a reading without one. -/
def markPosition (ts : ℤ) (positions : Dict Mint PositionView) (m : Mint × Mark) :
    Dict Mint PositionView :=
  match positions.get m.1 with
  | none => positions
  | some pos =>
    if pos.mtmFrozen then positions
    else
      positions.set m.1
        { pos with
          lastMtmVenueFeeLamports := m.2.venueFeeLamports
          lastMtmLamports := m.2.mtmLamports
          lastMtmTs := some (m.2.ts.getD ts)
          pricePeak := max pos.pricePeak m.2.spot }

def onMtm (state : LedgerState) (ts : ℤ) (p : MarkToMarket) : LedgerState :=
  trackPeak { state with
    positions := p.prices.foldl (markPosition ts) state.positions
    lastMtmTs := some ts }

def onHaltSet (state : LedgerState) (ts : ℤ) (p : HaltSet) : LedgerState :=
  { state with halt := { active := true, reason := some p.reason, since := some ts } }

def onHaltCleared (state : LedgerState) : LedgerState := { state with halt := {} }

def onKillSet (state : LedgerState) (ts : ℤ) (p : KillSwitchSet) : LedgerState :=
  { state with
    killSwitch :=
      { active := true
        origin := some p.origin
        since := some ts
        flattenRequested := p.flattenRequested } }

def onKillCleared (state : LedgerState) : LedgerState := { state with killSwitch := {} }

def onBreakerTripped (state : LedgerState) (ts : ℤ) (p : BreakerTripped) : LedgerState :=
  { state with breakers := state.breakers.set p.breaker { isOpen := true, since := some ts } }

def onBreakerReset (state : LedgerState) (ts : ℤ) (p : BreakerReset) : LedgerState :=
  { state with breakers := state.breakers.set p.breaker { isOpen := false, since := some ts } }

def onRollover (state : LedgerState) (p : DailyRollover) : LedgerState :=
  { state with
    dayUtc := p.dayUtc
    dayStartEquityLamports := p.dayStartEquityLamports
    counters := {} }

def onApproval (state : LedgerState) (p : ApprovalRecorded) : LedgerState :=
  { state with approvals := state.approvals.set p.id { kind := p.kind, consumed := p.consumed } }

def handle (state : LedgerState) (ts : ℤ) : Payload → LedgerState
  | .positionOpened p => onPositionOpened state p
  | .positionClosed p => onPositionClosed state p
  | .fillRecorded p => onFill state p
  | .orderRejected p => onRejected state p
  | .markToMarket p => onMtm state ts p
  | .haltSet p => onHaltSet state ts p
  | .haltCleared _ => onHaltCleared state
  | .killSwitchSet p => onKillSet state ts p
  | .killSwitchCleared _ => onKillCleared state
  | .breakerTripped p => onBreakerTripped state ts p
  | .breakerReset p => onBreakerReset state ts p
  | .dailyRollover p => onRollover state p
  | .approvalRecorded p => onApproval state p
  | .orderPlaced _ | .configChanged | .liveWriteAttempted | .escalation _ | .journalNote _ => state

/-- Fold one stored row. -/
def reduce (state : LedgerState) (event : Event) : LedgerState :=
  { handle state event.ts event.payload with seq := event.seq }

def replay (state : LedgerState) (events : List Event) : LedgerState := events.foldl reduce state

@[simp] lemma replay_nil (state : LedgerState) : replay state [] = state := rfl

@[simp] lemma replay_cons (state : LedgerState) (e : Event) (es : List Event) :
    replay state (e :: es) = replay (reduce state e) es := rfl

lemma replay_append (state : LedgerState) (es fs : List Event) :
    replay state (es ++ fs) = replay (replay state es) fs := by
  simp [replay]

/-! ### The fields a handler leaves alone -/

section Frames

variable (state : LedgerState)

@[simp] lemma trackPeak_cash : (trackPeak state).cashLamports = state.cashLamports := by
  unfold trackPeak; split_ifs <;> rfl

@[simp] lemma trackPeak_positions : (trackPeak state).positions = state.positions := by
  unfold trackPeak; split_ifs <;> rfl

@[simp] lemma trackPeak_counters : (trackPeak state).counters = state.counters := by
  unfold trackPeak; split_ifs <;> rfl

@[simp] lemma trackPeak_halt : (trackPeak state).halt = state.halt := by
  unfold trackPeak; split_ifs <;> rfl

@[simp] lemma trackPeak_killSwitch : (trackPeak state).killSwitch = state.killSwitch := by
  unfold trackPeak; split_ifs <;> rfl

@[simp] lemma reduce_cash (e : Event) :
    (reduce state e).cashLamports = (handle state e.ts e.payload).cashLamports := rfl

@[simp] lemma reduce_positions (e : Event) :
    (reduce state e).positions = (handle state e.ts e.payload).positions := rfl

@[simp] lemma reduce_counters (e : Event) :
    (reduce state e).counters = (handle state e.ts e.payload).counters := rfl

@[simp] lemma reduce_halt (e : Event) :
    (reduce state e).halt = (handle state e.ts e.payload).halt := rfl

@[simp] lemma reduce_killSwitch (e : Event) :
    (reduce state e).killSwitch = (handle state e.ts e.payload).killSwitch := rfl

end Frames

end PumpGrok
