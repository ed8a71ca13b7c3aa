import PumpGrok.Core.Types

/-!
The rows of the ledger: the payload of each event type, the idempotency keys, and the stored
event. Each payload has the fields some modelled function reads.

A key is the tuple the program hashes or joins into its key text, so distinct tuples are
distinct keys.
-/

namespace PumpGrok

/-- The order id a row names: one drawn at placement, or the stand-in of an order refused
before it was placed. -/
inductive OrderRef where
  | placed (id : ℕ)
  | unplaced (decision : ℕ)
  deriving DecidableEq

structure OrderPlaced where
  orderId : ℕ
  decisionId : ℕ
  ticketId : TicketId
  side : Side
  mint : Mint
  slippageBps : ℤ
  sizeLamports : ℤ
  tokenUnits : ℤ
  approvalId : Option ℕ
  approvalKind : Option ApprovalKind
  deriving DecidableEq

structure OrderRejected where
  orderId : OrderRef
  decisionId : ℕ
  reason : Reason
  detail : Detail
  stage : Stage
  feesLamports : ℤ := 0
  quoteOut : ℤ := 0
  otherAmountThreshold : ℤ := 0
  confirmOut : ℤ := 0
  deriving DecidableEq

structure FillRecorded where
  orderId : ℕ
  decisionId : Option ℕ
  side : Side
  mint : Mint
  filledLamports : ℤ
  filledUnits : ℤ
  filledFraction : ℚ
  priceAvg : ℚ
  venueFeeLamports : ℤ := 0
  networkCostLamports : ℤ := 0
  cashDeltaLamports : ℤ := 0
  latency : ℤ := 0
  venueTxRef : ℕ
  curveBefore : ℤ × ℤ := (0, 0)
  curveAfter : ℤ × ℤ := (0, 0)
  realisedSlippageBps : ℤ := 0
  deriving DecidableEq

structure PositionOpened where
  mint : Mint
  priceEntry : ℚ
  tokenUnits : ℤ
  costBasisLamports : ℤ
  openedTs : ℤ
  creator : Creator
  ticketId : TicketId
  deriving DecidableEq

structure PositionClosed where
  mint : Mint
  priceExit : ℚ
  proceedsLamports : ℤ
  realizedPnlLamports : ℤ
  reason : ExitReason
  pnlPct : ℚ
  holdSeconds : ℤ
  venueTxRef : ℕ
  deriving DecidableEq

/-- One mint's entry of a mark row. `ts` is the recorded time of the reading, when it has one. -/
structure Mark where
  mtmLamports : ℤ
  venueFeeLamports : ℤ
  spot : ℚ
  ts : Option ℤ
  deriving DecidableEq

structure MarkToMarket where
  tsSource : ℤ
  cashLamports : ℤ
  equityLamports : ℤ
  unrealizedLamports : ℤ
  prices : List (Mint × Mark)
  deriving DecidableEq

inductive HaltReason where
  | dailyLoss
  | drawdown
  | ledgerInconsistent
  | manual
  | other (text : Text)
  deriving DecidableEq

inductive HaltDetail where
  | floorHaltedDaily
  | drawdownOfPeak (drawdown limit : ℚ)
  | verifyFailed
  | other (text : Text)
  deriving DecidableEq

structure HaltSet where
  reason : HaltReason
  detail : HaltDetail
  equityLamports : ℤ
  dayStartEquityLamports : ℤ
  setBy : Text := "risk_engine".toList
  deriving DecidableEq

structure HaltCleared where
  reason : Text
  clearedBy : Signer
  approvalId : ℕ
  deriving DecidableEq

inductive KillOrigin where
  | env
  | file
  | alertCommand
  | tool
  | clear
  | other (text : Text)
  deriving DecidableEq

structure KillSwitchSet where
  origin : KillOrigin
  reason : Text
  flattenRequested : Bool := false
  setBy : Text := "risk_engine".toList
  deriving DecidableEq

structure KillSwitchCleared where
  clearedBy : Signer
  approvalId : ℕ
  deriving DecidableEq

structure BreakerTripped where
  breaker : BreakerName
  cooldown : ℤ
  deriving DecidableEq

structure BreakerReset where
  breaker : BreakerName
  probeOk : Bool := false
  deriving DecidableEq

structure DailyRollover where
  dayUtc : ℤ
  dayStartEquityLamports : ℤ
  deriving DecidableEq

inductive EscalationKind where
  | exit (reason : ExitReason)
  | reputationDegraded
  | other (text : Text)
  deriving DecidableEq

/-- The detail of a forced close's escalation names the value and, where given, the ticket. -/
inductive EscalationDetail where
  | frozen (reason : ExitReason) (mint : Mint) (proceeds : ℤ) (ticket : Option TicketId)
  | buysRefused
  | other (text : Text)
  deriving DecidableEq

structure Escalation where
  kind : EscalationKind
  seat : Seat
  detail : EscalationDetail
  deriving DecidableEq

structure JournalNote where
  seat : Seat
  isVerdict : Bool
  text : Text
  deriving DecidableEq

/-- Absent fields of an approval are stored as empty texts and zeros. -/
structure ApprovalRecorded where
  id : ℕ
  kind : ApprovalKind
  approvedBy : Signer
  at_ : ℤ
  ticketId : Text
  mint : Text
  sizeLamports : ℤ
  tokenUnits : ℤ
  maxSlippageBps : ℤ
  exitRuleId : Option ExitReason
  rawMessage : Text
  consumed : Bool := false
  deriving DecidableEq

inductive Payload where
  | orderPlaced (p : OrderPlaced)
  | orderRejected (p : OrderRejected)
  | fillRecorded (p : FillRecorded)
  | positionOpened (p : PositionOpened)
  | positionClosed (p : PositionClosed)
  | markToMarket (p : MarkToMarket)
  | haltSet (p : HaltSet)
  | haltCleared (p : HaltCleared)
  | killSwitchSet (p : KillSwitchSet)
  | killSwitchCleared (p : KillSwitchCleared)
  | breakerTripped (p : BreakerTripped)
  | breakerReset (p : BreakerReset)
  | dailyRollover (p : DailyRollover)
  | configChanged
  | liveWriteAttempted
  | escalation (p : Escalation)
  | journalNote (p : JournalNote)
  | approvalRecorded (p : ApprovalRecorded)
  deriving DecidableEq

/-- Rows of the trading path, which only the adapter appends. -/
def Payload.isTrade : Payload → Bool
  | .orderPlaced _ | .orderRejected _ | .fillRecorded _ | .positionOpened _ | .positionClosed _
  | .markToMarket _ => true
  | _ => false

/-! ### Keys -/

inductive Key where
  | execPlace (ticket : TicketId) (side : Side) (decision : ℕ)
  | reject (ticket : TicketId) (side : Side) (decision : ℕ) (stage : Stage) (reason : Reason)
  | fill (order : ℕ)
  | position (order : ℕ)
  | close (order : ℕ)
  | consume (approval : Option ℕ)
  | forceClose (reason : ExitReason) (mint : Mint) (ts : ℤ)
  | escalation (reason : ExitReason) (mint : Mint) (ts : ℤ)
  | mtm (mint : Mint) (ts : ℤ)
  | mtmBook (ts : ℤ) (prices : List (Mint × Mark)) (basis : List (Mint × ℤ))
  | halt (reason : HaltReason) (day : ℤ)
  | killSwitch (origin : KillOrigin) (reason : Text) (day : ℤ) (flatten : Bool) (epoch : ℕ)
  | killTool (flatten : Bool) (reason : Text) (minute : ℤ)
  | breakerTrip (breaker : BreakerName) (occurrence : ℕ)
  | breakerReset (breaker : BreakerName) (occurrence : ℕ)
  | reputationDegraded (day : ℤ)
  | killVerdict (mint : Mint) (day : ℤ)
  | haltClear (approval : ℕ)
  | consumed (approval : ℕ)
  | approval (id : ℕ)
  | rollover (day : ℤ)
  | seatEscalation (kind : EscalationKind) (seat : Seat) (ts : ℤ)
  | other (n : ℕ)
  deriving DecidableEq

/-- Keys only the paper adapter writes under. -/
def Key.isTrade : Key → Bool
  | .execPlace .. | .reject .. | .fill _ | .position _ | .close _ | .consume _
  | .forceClose .. | .escalation .. | .mtm .. | .mtmBook .. => true
  | _ => false

/-- A row offered to the store. -/
structure Row where
  ts : ℤ
  source : EventSource
  key : Key
  payload : Payload
  deriving DecidableEq

/-- A stored row. -/
structure Event extends Row where
  seq : ℕ
  deriving DecidableEq

end PumpGrok
