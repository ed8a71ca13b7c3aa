import PumpGrok.Risk.Engine

/-!
The adapter's memory, the values that cross its awaits, and the programs over the desk and that
memory together.
-/

namespace PumpGrok

inductive CurveSource where
  | rpc
  | rest
  | pumpportal
  | fixture
  deriving DecidableEq

/-- Reserves observed at one instant; `ts` is the recorded time of a fixture reading. -/
structure CurveSnapshot where
  sLamports : ℤ
  tUnits : ℤ
  complete : Bool := false
  source : CurveSource := .fixture
  ts : Option ℤ := none
  deriving DecidableEq

/-- Reserves read through the assumed account layout may not price an entry. -/
def rpcCurvePriceAllowed (source : CurveSource) : Bool := source ≠ .rpc

/-- A priced buy at the decision reserves. -/
structure BuyQuote where
  size : ℤ
  filled : ℤ
  fraction : ℚ
  venueFee : ℤ
  xNet : ℤ
  slippageBps : ℤ
  out0 : ℤ
  threshold : ℤ
  deriving DecidableEq

/-- The sizing and quote of one sell, fixed before its batch is written. -/
structure SellPlan where
  units : ℤ
  filledUnits : ℤ
  fraction : ℚ
  out0 : ℤ
  threshold : ℤ
  deriving DecidableEq

inductive FillStatus where
  | filled
  | partially
  deriving DecidableEq

structure Fill where
  orderId : ℕ
  decisionId : Option ℕ
  status : FillStatus
  venueTxRef : ℕ
  filledLamports : ℤ
  filledUnits : ℤ
  filledFraction : ℚ
  priceAvg : ℚ
  realisedSlippageBps : ℤ
  venueFeeLamports : ℤ
  networkCostLamports : ℤ
  ledgerSeq : ℕ
  deriving DecidableEq

/-- The arguments of one `place` call. -/
structure PlaceCall where
  request : OrderRequest
  seat : Option Seat := none
  callingSeat : Option Seat := none
  exitReason : Option ExitReason := none
  creator : Creator := []
  source : Option EventSource := none

namespace PlaceCall

/-- The exit reason given, else the one the request names. -/
def reason (c : PlaceCall) : Option ExitReason :=
  match c.exitReason with
  | some r => some r
  | none => c.request.exitReason.map .rule

def ledgerSource (cfg : DeskConfig) (c : PlaceCall) : EventSource := c.source.getD cfg.source

def key (c : PlaceCall) : Key :=
  .execPlace c.request.ticketId c.request.side c.request.decisionId

def checkCall (cfg : DeskConfig) (c : PlaceCall) (stage : Stage) : CheckCall where
  order := c.request
  seat := c.seat
  callingSeat := c.callingSeat
  exitReason := c.reason
  creator := c.creator
  source := c.ledgerSource cfg
  stage := stage

end PlaceCall

/-- What the adapter keeps between awaits. An owner is the token of one `place` call. -/
structure Adapter where
  inflight : Finset ℕ := ∅
  cancelled : Finset ℕ := ∅
  lastPriceTs : Dict Mint ℤ := ∅
  lastReserves : Dict Mint (ℤ × ℤ) := ∅
  frozenMarks : Dict Mint ℤ := ∅
  activePlaces : Finset Key := ∅
  ownedOrder : Dict ℕ ℕ := ∅

/-- The desk with its adapter. -/
structure World where
  desk : Desk
  mem : Adapter

namespace World

def onDesk {α : Type} (m : Prog Desk Exc α) : Prog World Exc α :=
  Prog.on World.desk (fun d w => { w with desk := d }) m

def onStore {α : Type} (m : Prog LedgerStore Exc α) : Prog World Exc α := onDesk (Desk.onStore m)

def remember (f : Adapter → Adapter) : Prog World Exc Unit :=
  Prog.modify fun w => { w with mem := f w.mem }

def now : Prog World Exc ℤ := Prog.read fun w => w.desk.now

def fold (cfg : DeskConfig) : Prog World Exc LedgerState := Prog.read fun w => w.desk.fold cfg

def ulid : Prog World Exc ℕ := onDesk Desk.ulid

def discardInflight (order : ℕ) : Prog World Exc Unit :=
  remember fun a => { a with inflight := a.inflight.erase order }

/-- Raise the exception of a computation that failed. -/
def ofExcept {α : Type} : Except Exc α → Prog World Exc α
  | .ok a => pure a
  | .error x => Prog.raise x

end World

/-! ### Sizing -/

def fillCap (cfg : DeskConfig) (sLamports : ℤ) : ℤ :=
  truncInt (sLamports * cfg.budget.partialFillFraction)

def liquidityFloor (cfg : DeskConfig) (size : ℤ) : ℤ := cfg.budget.liquidityFloorMultiple * size

def slippageBps (cfg : DeskConfig) (r : OrderRequest) : ℤ :=
  min r.maxSlippageBps cfg.limits.maxSlippageBps

/-- The units a sell asks for: as carried, else its notional at the curve. -/
def sellUnits (r : OrderRequest) (curve : CurveSnapshot) : ℤ :=
  match r.tokenUnits with
  | some units => units
  | none =>
    let size := r.sizeLamports.getD 0
    if size ≤ 0 ∨ curve.sLamports ≤ 0 then 0 else size * curve.tUnits / curve.sLamports

def openUnits (state : LedgerState) (mint : Mint) : ℤ :=
  ((state.positions.get mint).map (·.tokenUnits)).getD 0

/-- The position of a mint, when it holds units. -/
def heldPosition (state : LedgerState) (mint : Mint) : Option PositionView :=
  (state.positions.get mint).filter (0 < ·.tokenUnits)

end PumpGrok
