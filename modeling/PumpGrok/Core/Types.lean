import Mathlib

/-!
The vocabulary shared by the ledger, the risk engine and the paper adapter: ids, times, order
requests, approvals, refusal reasons and errors.

Money is integer lamports, token amounts are integer base units, prices and fractions are exact
rationals. Times are integer microseconds, the resolution of a ledger timestamp. Ids the
program draws are the numbers drawn.
-/

namespace PumpGrok

abbrev Text := List Char
abbrev Mint := Text
abbrev TicketId := Text
abbrev Creator := Text

instance : LawfulBEq Text := inferInstance

/-- The UTC day of a time. -/
def utcDay (t : ℤ) : ℤ := t / 86400000000

/-- `int(x)` of a decimal: towards zero. -/
def truncInt (q : ℚ) : ℤ := q.num.tdiv q.den

inductive Side where
  | buy
  | sell
  deriving DecidableEq

inductive Stage where
  | accepted
  | confirming
  deriving DecidableEq

inductive EventSource where
  | paper
  | replay
  | manual
  deriving DecidableEq

/-- The rules of the exit engine. -/
inductive ExitRule where
  | stopLoss
  | takeProfit
  | trailingStop
  | maxHold
  deriving DecidableEq

inductive ExitReason where
  | rule (r : ExitRule)
  | exitRule
  | rugAlert
  | killFlatten
  | blindFlatten
  | graduated
  | manual
  | other (text : Text)
  deriving DecidableEq

namespace ExitReason

/-- Exit reasons that skip the entry steps. -/
def isExitSell : ExitReason → Bool
  | rule _ | exitRule | rugAlert | killFlatten | blindFlatten | graduated => true
  | manual | other _ => false

def isRule : ExitReason → Bool
  | rule _ => true
  | _ => false

/-- Exits the system starts itself, in any autonomy mode. -/
def isSystem : ExitReason → Bool
  | killFlatten | rugAlert => true
  | _ => false

end ExitReason

inductive Seat where
  | risk
  | sniper
  | exit
  | other (name : Text)
  deriving DecidableEq

inductive BreakerName where
  | dataStale
  | lossVelocity
  | execErrors
  deriving DecidableEq

def breakerNames : List BreakerName := [.dataStale, .lossVelocity, .execErrors]

@[simp] lemma mem_breakerNames (n : BreakerName) : n ∈ breakerNames := by
  cases n <;> simp [breakerNames]

/-! ### Refusal reasons -/

/-- The steps of one risk check, in the order they run. -/
inductive StepId where
  | ledgerInconsistent
  | killSwitch
  | halted
  | breakerOpen
  | liveGate
  | approvalMissing
  | approvalMismatch
  | seatMayTrade
  | maxTradesPerDay
  | maxOpenPositions
  | alreadyOpen
  | creatorAlreadyOpen
  | maxTradeFraction
  | maxTokenFraction
  | dailyLossHalt
  | drawdownHalt
  | dataStale
  | sizeTooSmall
  | belowLiquidityFloor
  deriving DecidableEq

def stepIds : List StepId :=
  [.ledgerInconsistent, .killSwitch, .halted, .breakerOpen, .liveGate, .approvalMissing,
    .approvalMismatch, .seatMayTrade, .maxTradesPerDay, .maxOpenPositions, .alreadyOpen,
    .creatorAlreadyOpen, .maxTradeFraction, .maxTokenFraction, .dailyLossHalt, .drawdownHalt,
    .dataStale, .sizeTooSmall, .belowLiquidityFloor]

inductive Reason where
  | pass
  | step (s : StepId)
  | reputationDegraded
  | noPosition
  | noReserves
  | dataUnavailable
  | postGraduationNoReserves
  | confirmationTimeout
  | cancelled
  | slippageExceeded
  | txDropped
  | quoteUnavailable
  | rpcError
  | inFlight
  deriving DecidableEq

/-- The rejections the execution-error breaker counts. -/
def Reason.isExecError : Reason → Bool
  | .txDropped | .slippageExceeded | .quoteUnavailable | .rpcError => true
  | _ => false

/-- The detail texts of refusals, with the values they print. `stored` is the form a ledger row
keeps, with the ticket and the mint appended. -/
inductive Detail where
  | riskRefused
  | acceptedRecheckRefused
  | confirmingRecheck
  | mint (m : Mint)
  | layoutAssumed
  | curveComplete (m : Mint)
  | curveCompleteAtConfirming (m : Mint)
  | solFloor (s floor : ℤ)
  | tokenFloor (t floor : ℤ)
  | derivedUnitsZero (t : ℤ)
  | needsOpenPosition (m : Mint)
  | approvalConsumed (id : Option ℕ)
  | confirmWait (latency timeout : ℤ)
  | outcomeUnknown (order : ℕ)
  | order (id : ℕ)
  | seededDrop
  | confirmBelowThreshold (out threshold : ℤ)
  | exceedsHolding (m : Mint) (units held : ℤ)
  | noOutcome
  | stored (d : Detail) (ticket : TicketId) (m : Mint)
  deriving DecidableEq

structure OrderError where
  reason : Reason
  detail : Detail
  stage : Stage
  feesLamports : ℤ := 0
  deriving DecidableEq

inductive Exc where
  | orderRejected (e : OrderError)
  | orderUnknown (e : OrderError)
  | corruptState
  | valueError
  | divisionByZero
  | integrityError
  | ledgerInconsistent
  | runtimeError
  | assertionError
  | taskCancelled
  | osError
  | clearRefused
  deriving DecidableEq

/-! ### Orders and approvals -/

structure OrderRequest where
  ticketId : TicketId
  mint : Mint
  side : Side
  decisionId : ℕ
  sizeLamports : Option ℤ
  tokenUnits : Option ℤ
  maxSlippageBps : ℤ
  approvalId : ℕ
  exitReason : Option ExitRule
  mint_ge : 32 ≤ mint.length
  mint_le : mint.length ≤ 44
  size_pos : ∀ n ∈ sizeLamports, 0 < n
  units_pos : ∀ n ∈ tokenUnits, 0 < n
  slippage_ge : 1 ≤ maxSlippageBps
  slippage_le : maxSlippageBps ≤ 10000
  buy_sized : side = .buy → sizeLamports.isSome
  sell_sized : side = .sell → tokenUnits.isSome ∨ sizeLamports.isSome
  exit_sells : exitReason.isSome → side = .sell
  deriving DecidableEq

lemma OrderRequest.mint_ne (r : OrderRequest) : r.mint ≠ [] := by
  intro h
  have := r.mint_ge
  simp [h] at this

/-- The fields a risk decision is bound to. -/
structure OrderHash where
  ticketId : TicketId
  side : Side
  decisionId : ℕ
  mint : Mint
  sizeLamports : Option ℤ
  tokenUnits : Option ℤ
  maxSlippageBps : ℤ
  deriving DecidableEq

def orderHashFor (order : OrderRequest) : OrderHash where
  ticketId := order.ticketId
  side := order.side
  decisionId := order.decisionId
  mint := order.mint
  sizeLamports := order.sizeLamports
  tokenUnits := order.tokenUnits
  maxSlippageBps := order.maxSlippageBps

inductive ApprovalKind where
  | humanBuy
  | humanSell
  | exitRule
  | autonomousPaper
  | killswitchClear
  | haltClear
  | liveGate
  | other (name : Text)
  deriving DecidableEq

inductive Signer where
  | human (name : Text)
  | riskEngine
  | other (name : Text)
  deriving DecidableEq

structure ApprovalRecord where
  id : ℕ
  kind : ApprovalKind
  ticketId : Option TicketId
  mint : Option Mint
  sizeLamports : Option ℤ
  tokenUnits : Option ℤ
  maxSlippageBps : Option ℤ
  exitRuleId : Option ExitReason
  approvedBy : Signer
  rawMessage : Text
  at_ : ℤ
  consumed : Bool := false
  deriving DecidableEq

namespace ApprovalRecord

def isHumanKind (k : ApprovalKind) : Bool :=
  match k with
  | .humanBuy | .humanSell | .exitRule | .killswitchClear | .haltClear | .liveGate => true
  | .autonomousPaper | .other _ => false

/-- The validator of a record: a literal kind, positive sizes, and for human kinds a human
signer with the fields of that kind. -/
def valid (a : ApprovalRecord) : Bool :=
  (match a.kind with | .other _ => false | _ => true) &&
  a.sizeLamports.all (0 < ·) && a.tokenUnits.all (0 < ·) &&
  if isHumanKind a.kind then
    (match a.approvedBy with | .human _ => true | _ => false) &&
    (if a.kind = .humanBuy ∨ a.kind = .humanSell then
      a.ticketId.isSome && a.mint.isSome && a.maxSlippageBps.isSome else true) &&
    (if a.kind = .humanBuy then a.sizeLamports.isSome else true) &&
    (if a.kind = .humanSell then a.sizeLamports.isSome || a.tokenUnits.isSome else true) &&
    (if a.kind = .exitRule then
      a.tokenUnits.isSome && a.ticketId.isSome && a.exitRuleId.isSome else true)
  else a.approvedBy = .riskEngine

/-- The side a kind may authorise. -/
def orderSide : ApprovalKind → Option Side
  | .humanBuy => some .buy
  | .humanSell | .exitRule => some .sell
  | _ => none

/-- Every size the approval states agrees with the request. -/
def sizeMatches (a : ApprovalRecord) (r : OrderRequest) : Bool :=
  if r.side = .buy ∨ a.kind = .humanSell then
    (a.sizeLamports.isNone || a.sizeLamports = r.sizeLamports) &&
    (if a.tokenUnits.isSome then a.tokenUnits = r.tokenUnits else r.tokenUnits.isNone)
  else if a.kind = .exitRule then a.tokenUnits = r.tokenUnits
  else if a.kind = .autonomousPaper then
    if r.tokenUnits.isSome ∧ a.tokenUnits.isSome then a.tokenUnits = r.tokenUnits
    else a.sizeLamports = r.sizeLamports
  else false

/-- An unconsumed approval of the order's side that binds the order. -/
def «matches» (a : ApprovalRecord) (r : OrderRequest) : Bool :=
  if a.consumed ∨ orderSide a.kind ≠ some r.side then false
  else if a.ticketId ≠ some r.ticketId ∨ a.mint ≠ some r.mint then false
  else if a.maxSlippageBps ≠ some r.maxSlippageBps then false
  else sizeMatches a r

end ApprovalRecord

/-! ### Limits -/

/-- The risk budget. Its fields carry the bounds its validator checks. -/
structure RiskBudget where
  maxTradeFraction : ℚ := 2 / 100
  maxTokenFraction : ℚ := 5 / 100
  dailyLossHaltFraction : ℚ := 5 / 100
  drawdownHaltFraction : ℚ := 15 / 100
  maxOpenPositions : ℕ := 3
  maxTradesPerDay : ℕ := 20
  liquidityFloorMultiple : ℕ := 10
  partialFillFraction : ℚ := 2 / 100
  paperEquityLamports : ℤ := 10000000000
  trade_ge : 0 ≤ maxTradeFraction := by norm_num
  trade_le : maxTradeFraction ≤ 1 := by norm_num
  token_ge : 0 ≤ maxTokenFraction := by norm_num
  token_le : maxTokenFraction ≤ 1 := by norm_num
  loss_ge : 0 ≤ dailyLossHaltFraction := by norm_num
  loss_le : dailyLossHaltFraction ≤ 5 / 100 := by norm_num
  drawdown_ge : 0 ≤ drawdownHaltFraction := by norm_num
  drawdown_le : drawdownHaltFraction ≤ 1 := by norm_num
  floor_ge : 1 ≤ liquidityFloorMultiple := by norm_num
  partial_pos : 0 < partialFillFraction := by norm_num
  partial_le : partialFillFraction ≤ 1 := by norm_num
  equity_ge : 0 ≤ paperEquityLamports := by norm_num

inductive LossBasis where
  | total
  | realized
  deriving DecidableEq

/-- Engine knobs outside the budget. -/
structure EngineLimits where
  minTradeLamports : ℤ := 10000000
  maxSlippageBps : ℤ := 300
  onePositionPerCreator : Bool := true
  dailyLossBasis : LossBasis := .total
  blindMax : ℤ := 300000000
  mtmInterval : ℤ := 60000000
  confirmTimeout : ℤ := 30000000
  min_ge : 1 ≤ minTradeLamports := by norm_num
  slippage_ge : 0 ≤ maxSlippageBps := by norm_num
  slippage_le : maxSlippageBps ≤ 10000 := by norm_num
  blind_ge : 0 ≤ blindMax := by norm_num
  mtm_pos : 0 < mtmInterval := by norm_num
  timeout_pos : 0 < confirmTimeout := by norm_num

end PumpGrok
