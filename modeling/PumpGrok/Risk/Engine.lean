import PumpGrok.Ledger.Reducer
import PumpGrok.Risk.Breakers
import PumpGrok.Risk.KillSwitch
import PumpGrok.Execution.CurveMath

/-!
The risk engine: the nineteen steps of one check, the decision cache in front of them, and the
probes a check claims.

A desk is the engine together with the store, the clock and the id source it shares with the
adapter. A check is a program over the desk; the step walk is a program over the desk and the
state of one walk.
-/

namespace PumpGrok

inductive Mode where
  | paper
  | live
  deriving DecidableEq

inductive Autonomy where
  | manualTicket
  | autonomousPaper
  deriving DecidableEq

/-- What the composition root fixes once. -/
structure DeskConfig where
  budget : RiskBudget
  limits : EngineLimits
  mode : Mode
  autonomy : Autonomy
  scanKillVerdicts : Bool
  fees : FeeModel
  source : EventSource

inductive StepStatus where
  | pass
  | fail
  | skip
  deriving DecidableEq

structure RiskDecision where
  passed : Bool
  reason : Reason
  orderHash : OrderHash
  decisionId : ℕ
  approvalId : Option ℕ
  approval : Option ApprovalRecord
  sizeLamports : Option ℤ
  tokenUnits : Option ℤ
  capped : Bool
  caps : List (StepId × ℤ)
  probe : Bool
  evaluated : List (StepId × StepStatus)
  deriving DecidableEq

/-- The key a decision is cached under. -/
structure CacheKey where
  stage : Stage
  orderHash : OrderHash
  approvalId : ℕ
  count : ℕ
  killActive : Bool
  killSource : Option KillOrigin
  killReason : Text
  openBreakers : List BreakerName
  halfOpenBreakers : List BreakerName
  deriving DecidableEq

structure Desk where
  store : LedgerStore
  now : ℤ
  nextId : ℕ
  killswitch : KillSwitch := {}
  breakers : BreakerSet := {}
  probeOwners : Dict BreakerName OrderHash := ∅
  decisions : Dict CacheKey RiskDecision := ∅
  observeOnly : List Seat := []
  reputationDegraded : Option Bool := none
  liveUnmet : Bool := true
  reserves : Mint → Option (ℤ × ℤ) := fun _ => none

/-- The arguments of one check. `callingSeat` is the seat bound to the calling task. -/
structure CheckCall where
  order : OrderRequest
  seat : Option Seat
  callingSeat : Option Seat
  exitReason : Option ExitReason
  creator : Creator
  source : EventSource
  stage : Stage

namespace Desk

def bound (d : Desk) : BreakerSet.Bound := (d.breakers, d.store)

def withBound (s : BreakerSet.Bound) (d : Desk) : Desk := { d with breakers := s.1, store := s.2 }

def onStore {α : Type} (m : Prog LedgerStore Exc α) : Prog Desk Exc α :=
  Prog.on Desk.store (fun st d => { d with store := st }) m

def onBreakers {α : Type} (m : Prog BreakerSet.Bound Exc α) : Prog Desk Exc α :=
  Prog.on bound withBound m

def onKill {α : Type} (m : Prog (KillSwitch × LedgerStore) Exc α) : Prog Desk Exc α :=
  Prog.on (fun d => (d.killswitch, d.store))
    (fun s d => { d with killswitch := s.1, store := s.2 }) m

def ulid : Prog Desk Exc ℕ := fun d => (.ok d.nextId, { d with nextId := d.nextId + 1 })

/-- The state of the whole ledger. -/
def fold (cfg : DeskConfig) (d : Desk) : LedgerState :=
  replay (initialState (d.store.initialEquity.getD cfg.budget.paperEquityLamports) (utcDay d.now))
    d.store.read

end Desk

/-! ### What a check reads from the ledger -/

def equityForHalts (cfg : DeskConfig) (state : LedgerState) : ℤ :=
  if cfg.limits.dailyLossBasis = .realized then
    state.cashLamports + state.counters.realizedTodayLamports
  else equityLamports state

/-- The mint of a recorded kill verdict. -/
def killVerdictMint (text : Text) : Option Mint := do
  let rest ← PyText.dropPrefix "RISK verdict=KILL mint=".toList text
  let (mint, tail) := PyText.takeWord rest
  if mint = [] then none
  else if tail = [] ∨ tail = ['\n'] then some mint
  else do
    let more ← PyText.dropSpaces tail
    let reason ← PyText.dropPrefix "reason=".toList more
    if '\n' ∉ reason ∨ ('\n' ∉ reason.dropLast ∧ reason.getLast? = some '\n') then some mint
    else none

def killedMints (cfg : DeskConfig) (events : List Event) : List Mint :=
  if cfg.scanKillVerdicts then
    events.filterMap fun e => match e.payload with
      | .journalNote p => if p.isVerdict then killVerdictMint p.text else none
      | _ => none
  else []

/-- The record a stored approval stands for; empty texts and zeros are absent fields. -/
def approvalOf (p : ApprovalRecorded) : ApprovalRecord where
  id := p.id
  kind := p.kind
  ticketId := if p.ticketId = [] then none else some p.ticketId
  mint := if p.mint = [] then none else some p.mint
  sizeLamports := if p.sizeLamports = 0 then none else some p.sizeLamports
  tokenUnits := if p.tokenUnits = 0 then none else some p.tokenUnits
  maxSlippageBps := if p.maxSlippageBps = 0 then none else some p.maxSlippageBps
  exitRuleId := p.exitRuleId
  approvedBy := p.approvedBy
  rawMessage := p.rawMessage
  at_ := p.at_

/-- The newest row of an approval id. -/
def latestApproval (events : List Event) (id : ℕ) : Option ApprovalRecorded :=
  events.foldl
    (fun latest e => match e.payload with
      | .approvalRecorded p => if p.id = id then some p else latest
      | _ => latest)
    none

/-- The unconsumed approval recorded under an id, when it is a valid record. -/
def approvals (events : List Event) (id : ℕ) : Option ApprovalRecord :=
  match latestApproval events id with
  | none => none
  | some p =>
    if p.consumed then none
    else if (approvalOf p).valid then some (approvalOf p) else none

def creatorOf (events : List Event) (state : LedgerState) (mint : Mint) : Creator :=
  let recorded := (events.findSome? fun e => match e.payload with
    | .positionOpened p => if p.mint = mint then some p.creator else none
    | _ => none).getD []
  match state.positions.get mint with
  | none => recorded
  | some pos => if pos.creator = [] then recorded else pos.creator

def creatorOpen (state : LedgerState) (creator : Creator) : Bool :=
  state.positions.values.any fun p => 0 < p.tokenUnits && p.creator = creator

def clearedToday (events : List Event) (day : ℤ) : Bool :=
  events.any fun e => match e.payload with
    | .haltCleared _ => utcDay e.ts = day
    | _ => false

def haltRow (reason : HaltReason) (detail : HaltDetail) (equity dayStart ts : ℤ)
    (source : EventSource) : Row where
  ts := ts
  source := source
  key := .halt reason (utcDay ts)
  payload := .haltSet
    { reason := reason
      detail := detail
      equityLamports := equity
      dayStartEquityLamports := dayStart }

def appendHalt (row : Row) : Prog LedgerStore Exc Unit :=
  LedgerStore.appendSuppressing [.integrityError, .ledgerInconsistent] row

/-- Detect a daily-loss or drawdown breach and record it. -/
def detectBreach (cfg : DeskConfig) (state : LedgerState) (equity ts : ℤ) (source : EventSource) :
    Prog LedgerStore Exc (Option HaltReason) := fun st =>
  let dayStart := state.dayStartEquityLamports
  let peak := state.peakEquityLamports
  let drawdown : ℚ := if 0 < peak then (peak - equity) / peak else 0
  if clearedToday st.read (utcDay ts) then (.ok none, st)
  else if dayStart ≤ 0 then (.error .corruptState, st)
  else if (dayStart : ℚ) * cfg.budget.dailyLossHaltFraction ≤ (dayStart - equity : ℤ) then
    (do
      appendHalt (haltRow .dailyLoss .floorHaltedDaily equity dayStart ts source)
      pure (some .dailyLoss) : Prog LedgerStore Exc (Option HaltReason)) st
  else if cfg.budget.drawdownHaltFraction ≤ drawdown then
    (do
      appendHalt (haltRow .drawdown
        (.drawdownOfPeak drawdown cfg.budget.drawdownHaltFraction) equity dayStart ts source)
      pure (some .drawdown) : Prog LedgerStore Exc (Option HaltReason)) st
  else (.ok none, st)

/-! ### The walk -/

/-- What ends a walk early: a refusal, or an exception that leaves the check. -/
inductive StepExc where
  | fail (reason : Reason)
  | exc (x : Exc)
  deriving DecidableEq

structure StepCtx where
  call : CheckCall
  state : LedgerState
  kill : Option KillState
  openBreakers : List BreakerName
  halfBlocked : Bool
  killed : List Mint
  equity : ℤ
  approvals : ℕ → Option ApprovalRecord
  evaluated : List StepId := []
  approval : Option ApprovalRecord := none
  approvalId : Option ℕ
  finalSize : Option ℤ
  caps : List (StepId × ℤ) := []
  capped : Bool := false
  probe : Bool := false

namespace StepCtx

def order (ctx : StepCtx) : OrderRequest := ctx.call.order

def isBuy (ctx : StepCtx) : Bool := ctx.call.order.side = .buy

def isExitSell (ctx : StepCtx) : Bool := !ctx.isBuy && ctx.call.exitReason.any ExitReason.isExitSell

def wanted (ctx : StepCtx) (k : ApprovalKind) : Bool :=
  if ctx.isBuy then k = .humanBuy else k = .humanSell || k = .exitRule

end StepCtx

abbrev Walk (α : Type) : Type := Prog (Desk × StepCtx) StepExc α

namespace Walk

def onDesk {α : Type} (m : Prog Desk Exc α) : Walk α := fun s =>
  match m s.1 with
  | (.ok a, d) => (.ok a, d, s.2)
  | (.error x, d) => (.error (.exc x), d, s.2)

def ctx : Walk StepCtx := Prog.read Prod.snd

def update (f : StepCtx → StepCtx) : Walk Unit := Prog.modify fun s => (s.1, f s.2)

def mark (step : StepId) : Walk Unit :=
  update fun c => { c with evaluated := c.evaluated ++ [step] }

def failIf (c : Prop) [Decidable c] (reason : Reason) : Walk Unit := Prog.raiseIf c (.fail reason)

end Walk

open Walk

/-- An approval the engine issues itself. -/
def mintAutonomous (order : OrderRequest) (exitReason : Option ExitReason) :
    Prog Desk Exc ApprovalRecord := fun d =>
  let record : ApprovalRecord :=
    if order.side = .buy then
      { id := d.nextId
        kind := .autonomousPaper
        ticketId := some order.ticketId
        mint := some order.mint
        sizeLamports := order.sizeLamports
        tokenUnits := none
        maxSlippageBps := some order.maxSlippageBps
        exitRuleId := none
        approvedBy := .riskEngine
        rawMessage := "autonomous-paper buy ".toList ++ order.ticketId ++ [' '] ++ order.mint
        at_ := d.now }
    else
      { id := d.nextId
        kind := .autonomousPaper
        ticketId := some order.ticketId
        mint := some order.mint
        sizeLamports := if order.tokenUnits.isNone then order.sizeLamports else none
        tokenUnits := order.tokenUnits
        maxSlippageBps := some order.maxSlippageBps
        exitRuleId := if exitReason.any ExitReason.isRule then exitReason else none
        approvedBy := .riskEngine
        rawMessage := "autonomous-paper sell ".toList ++ order.mint
        at_ := d.now }
  (.ok record, { d with nextId := d.nextId + 1 })

def verifyStep (source : EventSource) : Prog Desk Exc Bool := fun d =>
  match LedgerStore.verify d.store with
  | (.ok _, st) => (.ok true, { d with store := st })
  | (.error _, st) =>
    (do
      Desk.onStore (appendHalt (haltRow .ledgerInconsistent .verifyFailed 0 0 d.now source))
      pure false : Prog Desk Exc Bool) { d with store := st }

def stepLedgerInconsistent : Walk Unit := do
  mark .ledgerInconsistent
  let c ← ctx
  let ok ← onDesk (verifyStep c.call.source)
  failIf (ok = false) (.step .ledgerInconsistent)

def stepKillSwitch : Walk Unit := do
  mark .killSwitch
  let c ← ctx
  failIf c.kill.isSome (.step .killSwitch)

def stepHalted : Walk Unit := do
  mark .halted
  let c ← ctx
  failIf c.state.halt.active (.step .halted)

def reputationEscalation (d : Desk) (source : EventSource) : Row where
  ts := d.now
  source := source
  key := .reputationDegraded (utcDay d.now)
  payload := .escalation { kind := .reputationDegraded, seat := .risk, detail := .buysRefused }

def writeReputationEscalation (source : EventSource) : Prog Desk Exc Unit := fun d =>
  Desk.onStore (LedgerStore.appendSuppressing [.integrityError, .ledgerInconsistent]
    (reputationEscalation d source)) d

/-- A degraded reputation book refuses buys only. -/
def refuseDegraded (source : EventSource) : Walk Unit := do
  onDesk (writeReputationEscalation source)
  Prog.raise (.fail .reputationDegraded)

def stepBreakerOpen : Walk Unit := do
  mark .breakerOpen
  let c ← ctx
  let degraded ← onDesk (Prog.read fun d => decide (d.reputationDegraded = some true))
  if c.isBuy = true ∧ degraded = true then refuseDegraded c.call.source
  else
    failIf (c.openBreakers ≠ [] ∨ c.order.mint ∈ c.killed ∨ c.halfBlocked = true)
      (.step .breakerOpen)

def stepLiveGate (cfg : DeskConfig) : Walk Unit := do
  mark .liveGate
  let unmet ← onDesk (Prog.read Desk.liveUnmet)
  failIf (cfg.mode = .live ∧ unmet = true) (.step .liveGate)

def grant (a : ApprovalRecord) : Walk Unit :=
  update fun c => { c with approval := some a, approvalId := some a.id }

def stepApprovalMissing (cfg : DeskConfig) : Walk Unit := do
  mark .approvalMissing
  let c ← ctx
  if c.call.exitReason.any ExitReason.isSystem ∨ cfg.autonomy = .autonomousPaper then do
    let a ← onDesk (mintAutonomous c.order c.call.exitReason)
    grant a
  else
    match c.approvals c.order.approvalId with
    | none => Prog.raise (.fail (.step .approvalMissing))
    | some a =>
      if a.ticketId ≠ some c.order.ticketId then Prog.raise (.fail (.step .approvalMissing))
      else grant a

/-- The approval names another exit rule than the one that sells. -/
def namesOtherRule (a : ApprovalRecord) (exitReason : Option ExitReason) : Bool :=
  a.kind = .exitRule && exitReason.any ExitReason.isRule && a.exitRuleId ≠ exitReason

def stepApprovalMismatch : Walk Unit := do
  mark .approvalMismatch
  let c ← ctx
  match c.approval with
  | none => Prog.raise (.fail (.step .approvalMismatch))
  | some a =>
    if a.approvedBy = .riskEngine then pure ()
    else
      failIf (namesOtherRule a c.call.exitReason = true ∨ c.wanted a.kind = false ∨
        a.matches c.order = false) (.step .approvalMismatch)

/-- The seat rules; a flatten with the engine's own approval needs no seat. -/
def seatAllowed (observeOnly : List Seat) (c : StepCtx) : Bool :=
  if c.call.exitReason = some .killFlatten ∧ c.approval.any (·.approvedBy = .riskEngine) then true
  else
    match c.call.seat.orElse fun _ => c.call.callingSeat with
    | none => false
    | some acting =>
      acting ∉ observeOnly && !(c.isBuy && .risk ∈ observeOnly) &&
        !(c.isBuy && .exit ∈ observeOnly) &&
        (if c.isBuy then acting = .sniper else acting = .exit)

def stepSeatMayTrade : Walk Unit := do
  mark .seatMayTrade
  let c ← ctx
  let seats ← onDesk (Prog.read Desk.observeOnly)
  failIf (seatAllowed seats c = false) (.step .seatMayTrade)

def stepMaxTradesPerDay (cfg : DeskConfig) : Walk Unit := do
  mark .maxTradesPerDay
  let c ← ctx
  failIf (cfg.budget.maxTradesPerDay ≤ c.state.counters.tradesToday) (.step .maxTradesPerDay)

def openCount (state : LedgerState) : ℕ := state.positions.values.countP fun p => 0 < p.tokenUnits

def stepMaxOpenPositions (cfg : DeskConfig) : Walk Unit := do
  mark .maxOpenPositions
  let c ← ctx
  failIf (c.isBuy = true ∧ cfg.budget.maxOpenPositions ≤ openCount c.state)
    (.step .maxOpenPositions)

def stepAlreadyOpen : Walk Unit := do
  mark .alreadyOpen
  let c ← ctx
  failIf (c.isBuy = true ∧ (c.state.positions.get c.order.mint).any (0 < ·.tokenUnits) = true)
    (.step .alreadyOpen)

/-- The creator a candidate is checked under: the one given, else the one on the ledger. -/
def mintCreator (d : Desk) (c : StepCtx) : Creator :=
  if c.call.creator = [] then creatorOf d.store.read c.state c.order.mint else c.call.creator

def stepCreatorAlreadyOpen (cfg : DeskConfig) : Walk Unit := do
  mark .creatorAlreadyOpen
  let c ← ctx
  let creator ← onDesk (Prog.read fun d => mintCreator d c)
  failIf (c.isBuy = true ∧ cfg.limits.onePositionPerCreator = true ∧ creator ≠ [] ∧
    creatorOpen c.state creator = true) (.step .creatorAlreadyOpen)

def capTo (step : StepId) (cap : ℤ) : Walk Unit :=
  update fun c =>
    { c with finalSize := some cap, capped := true, caps := c.caps ++ [(step, cap)] }

def stepMaxTradeFraction (cfg : DeskConfig) : Walk Unit := do
  mark .maxTradeFraction
  let c ← ctx
  if c.isBuy then
    match c.finalSize with
    | none => Prog.raise (.exc .assertionError)
    | some size =>
      let cap := truncInt (cfg.budget.maxTradeFraction * c.equity)
      if cap < size then capTo .maxTradeFraction cap else pure ()
  else pure ()

def stepMaxTokenFraction (cfg : DeskConfig) : Walk Unit := do
  mark .maxTokenFraction
  let c ← ctx
  if c.isBuy then
    match c.finalSize with
    | none => Prog.raise (.exc .assertionError)
    | some size =>
      let basis := ((c.state.positions.get c.order.mint).map (·.costBasisLamports)).getD 0
      let cap := truncInt (cfg.budget.maxTokenFraction * c.equity) - basis
      if cap < size then do
        failIf (cap < cfg.limits.minTradeLamports) (.step .maxTokenFraction)
        capTo .maxTokenFraction cap
      else pure ()
  else pure ()

def breach (cfg : DeskConfig) (state : LedgerState) (equity : ℤ) (source : EventSource) :
    Prog Desk Exc (Option HaltReason) := fun d =>
  Desk.onStore (detectBreach cfg state equity d.now source) d

def stepDailyLossHalt (cfg : DeskConfig) : Walk Unit := do
  mark .dailyLossHalt
  let c ← ctx
  let found ← onDesk (breach cfg c.state c.equity c.call.source)
  failIf (found = some .dailyLoss) (.step .dailyLossHalt)

/-- The ledger is folded again, so a halt of the step before is seen. -/
def stepDrawdownHalt (cfg : DeskConfig) : Walk Unit := do
  mark .drawdownHalt
  let state ← onDesk (Prog.read fun d => d.fold cfg)
  update fun c => { c with state := state, equity := equityForHalts cfg state }
  let c ← ctx
  let found ← onDesk (breach cfg c.state c.equity c.call.source)
  failIf (found = some .drawdown) (.step .drawdownHalt)

/-- Every held mint carries a mark younger than the limit. -/
def marksFresh (cfg : DeskConfig) (now : ℤ) (state : LedgerState) : Bool :=
  state.positions.values.all fun p =>
    p.tokenUnits ≤ 0 || p.lastMtmTs.any fun ts => now - ts ≤ cfg.limits.mtmInterval

def stepDataStale (cfg : DeskConfig) : Walk Unit := do
  mark .dataStale
  let c ← ctx
  let now ← onDesk (Prog.read Desk.now)
  failIf (marksFresh cfg now c.state = false) (.step .dataStale)

def stepSizeTooSmall (cfg : DeskConfig) : Walk Unit := do
  mark .sizeTooSmall
  let c ← ctx
  if c.isBuy then
    match c.finalSize with
    | none => Prog.raise (.exc .assertionError)
    | some size => failIf (size < cfg.limits.minTradeLamports) (.step .sizeTooSmall)
  else pure ()

def stepBelowLiquidityFloor (cfg : DeskConfig) : Walk Unit := do
  mark .belowLiquidityFloor
  let c ← ctx
  if c.isBuy then
    match c.finalSize with
    | none => Prog.raise (.exc .assertionError)
    | some size => do
      let reserves ← onDesk (Prog.read fun d => d.reserves c.order.mint)
      match reserves with
      | none => Prog.raise (.fail (.step .belowLiquidityFloor))
      | some r =>
        failIf (r.1 < cfg.budget.liquidityFloorMultiple * size) (.step .belowLiquidityFloor)
  else pure ()

def runStep (cfg : DeskConfig) : StepId → Walk Unit
  | .ledgerInconsistent => stepLedgerInconsistent
  | .killSwitch => stepKillSwitch
  | .halted => stepHalted
  | .breakerOpen => stepBreakerOpen
  | .liveGate => stepLiveGate cfg
  | .approvalMissing => stepApprovalMissing cfg
  | .approvalMismatch => stepApprovalMismatch
  | .seatMayTrade => stepSeatMayTrade
  | .maxTradesPerDay => stepMaxTradesPerDay cfg
  | .maxOpenPositions => stepMaxOpenPositions cfg
  | .alreadyOpen => stepAlreadyOpen
  | .creatorAlreadyOpen => stepCreatorAlreadyOpen cfg
  | .maxTradeFraction => stepMaxTradeFraction cfg
  | .maxTokenFraction => stepMaxTokenFraction cfg
  | .dailyLossHalt => stepDailyLossHalt cfg
  | .drawdownHalt => stepDrawdownHalt cfg
  | .dataStale => stepDataStale cfg
  | .sizeTooSmall => stepSizeTooSmall cfg
  | .belowLiquidityFloor => stepBelowLiquidityFloor cfg

/-- Steps an exit sell never evaluates. -/
def exitSkipStep : StepId → Bool
  | .ledgerInconsistent | .liveGate | .approvalMissing | .approvalMismatch | .seatMayTrade => false
  | _ => true

/-- Steps that run again at CONFIRMING. -/
def recheckStep : StepId → Bool
  | .liveGate | .approvalMissing | .approvalMismatch | .seatMayTrade | .maxTradesPerDay => false
  | _ => true

def skipStep (step : StepId) (stage : Stage) (isExitSell : Bool) : Bool :=
  if stage = .confirming ∧ recheckStep step = false then true
  else isExitSell && exitSkipStep step

def walkSteps (cfg : DeskConfig) : List StepId → Walk Unit
  | [] => pure ()
  | step :: rest => do
    let c ← ctx
    if skipStep step c.call.stage c.isExitSell then pure () else runStep cfg step
    walkSteps cfg rest

/-- A sell sized at ACCEPTED still finds its holding at the fill. -/
def confirmHolding : Walk Unit := do
  let c ← ctx
  if c.call.stage ≠ .confirming ∨ c.isBuy = true then pure ()
  else
    failIf ((c.state.positions.get c.order.mint).any (0 < ·.tokenUnits) = false) .noPosition

/-! ### Probes -/

structure ProbeView where
  halfAll : List BreakerName
  owned : List BreakerName
  halfAvail : List BreakerName

/-- Owners whose probe is no longer in flight are dropped. -/
def dropStaleOwners (d : Desk) : Desk :=
  { d with
    probeOwners := breakerNames.foldl
      (fun owners n => if (d.breakers.byName n).probeInflight then owners else owners.erase n)
      d.probeOwners }

def snapshotProbes (orderHash : OrderHash) : Prog Desk Exc ProbeView := fun d =>
  let d₁ := dropStaleOwners d
  let halfAll := breakerNames.filter fun n => (d₁.breakers.byName n).halfOpen
  let view : ProbeView :=
    { halfAll := halfAll
      owned := halfAll.filter fun n => d₁.probeOwners.get n = some orderHash
      halfAvail := d₁.breakers.halfOpenBreakers d₁.now }
  (.ok view, { d₁ with breakers := d₁.breakers.expireAll d₁.now })

/-- Admit a probe on one breaker and remember whose it is. -/
def admitOwned (n : BreakerName) (orderHash : OrderHash) : Prog Desk Exc Bool := fun d =>
  let (admitted, breakers) := d.breakers.admitProbe d.now n
  let owners := if admitted then d.probeOwners.set n orderHash else d.probeOwners
  (.ok admitted, { d with breakers := breakers, probeOwners := owners })

/-- A buy during a half-open breaker reuses its own probe, claims a free one, or is refused. -/
def claimProbe (orderHash : OrderHash) (probes : ProbeView) : Walk Unit := do
  let c ← ctx
  if !(c.isBuy && !c.isExitSell && !probes.halfAll.isEmpty) then pure ()
  else if probes.owned ≠ [] then update fun c => { c with probe := true }
  else
    match probes.halfAvail with
    | [] => Prog.raise (.fail (.step .breakerOpen))
    | n :: _ => do
      let admitted ← onDesk (admitOwned n orderHash)
      if admitted then update fun c => { c with probe := true }
      else Prog.raise (.fail (.step .breakerOpen))

/-! ### The check -/

def pollKill (source : EventSource) : Prog Desk Exc (Option KillState) := do
  let ts ← Prog.read Desk.now
  Desk.onKill (KillSwitch.observe ts source)
  fun d =>
    let (state, k) := d.killswitch.poll d.store.read
    (.ok (if state.active then some state else none), { d with killswitch := k })

def newCtx (cfg : DeskConfig) (call : CheckCall) (state : LedgerState) (equity : ℤ)
    (probes : ProbeView) : Prog Desk Exc StepCtx := do
  let kill ← pollKill call.source
  fun d =>
    let isBuy : Bool := call.order.side = .buy
    let ctx : StepCtx :=
      { call := call
        state := state
        kill := kill
        openBreakers := d.breakers.openBreakers d.now
        halfBlocked :=
          isBuy && !probes.halfAll.isEmpty && probes.halfAvail.isEmpty && probes.owned.isEmpty
        killed := if isBuy then killedMints cfg d.store.read else []
        equity := equity
        approvals := approvals d.store.read
        approvalId := some call.order.approvalId
        finalSize := if isBuy then call.order.sizeLamports else none }
    (.ok ctx, { d with breakers := d.breakers.expireAll d.now })

/-- The rows of a decision: a degraded reputation book fails the breaker row. -/
def evaluatedRows (c : StepCtx) (failed : Option Reason) : List (StepId × StepStatus) :=
  let failKey : Option Reason :=
    if failed = some .reputationDegraded then some (.step .breakerOpen) else failed
  stepIds.map fun s =>
    (s, if failKey = some (.step s) then .fail else if s ∈ c.evaluated then .pass else .skip)

def decisionOf (orderHash : OrderHash) (c : StepCtx) (failed : Option Reason) : RiskDecision where
  passed := failed.isNone
  reason := failed.getD .pass
  orderHash := orderHash
  decisionId := c.order.decisionId
  approvalId := c.approvalId
  approval := c.approval
  sizeLamports := if c.isBuy then c.finalSize else none
  tokenUnits := if c.isBuy then none else c.order.tokenUnits
  capped := c.capped
  caps := c.caps
  probe := c.probe
  evaluated := evaluatedRows c failed

/-- Run the walk to a decision. -/
def concludeWalk (orderHash : OrderHash) (c : StepCtx) (walk : Walk Unit) :
    Prog Desk Exc RiskDecision :=
  fun d =>
    match walk (d, c) with
    | (.ok _, d', c') => (.ok (decisionOf orderHash c' none), d')
    | (.error (.fail reason), d', c') => (.ok (decisionOf orderHash c' (some reason)), d')
    | (.error (.exc x), d', _) => (.error x, d')

def evaluate (cfg : DeskConfig) (call : CheckCall) : Prog Desk Exc RiskDecision := do
  let orderHash := orderHashFor call.order
  let state ← Prog.read fun d => d.fold cfg
  Prog.modify fun d =>
    { d with breakers := d.breakers.syncFromLedger d.now d.store.read }
  let equity := equityForHalts cfg state
  let now ← Prog.read Desk.now
  Desk.onBreakers (BreakerSet.refresh now now call.source equity)
  let probes ← snapshotProbes orderHash
  let ctx ← newCtx cfg call state equity probes
  concludeWalk orderHash ctx (do
    walkSteps cfg stepIds
    confirmHolding
    claimProbe orderHash probes)

def cacheKey (call : CheckCall) : Prog Desk Exc CacheKey := fun d =>
  let (kill, k) := d.killswitch.poll d.store.read
  (.ok
    { stage := call.stage
      orderHash := orderHashFor call.order
      approvalId := call.order.approvalId
      count := d.store.count
      killActive := kill.active
      killSource := kill.source
      killReason := kill.reason
      openBreakers := d.breakers.openBreakers d.now
      halfOpenBreakers := d.breakers.halfOpenBreakers d.now },
   { d with killswitch := k, breakers := d.breakers.expireAll d.now })

def decisionCacheMax : ℕ := 1024

/-- Run the steps for one order, unless a decision is cached. -/
def check (cfg : DeskConfig) (call : CheckCall) : Prog Desk Exc RiskDecision := do
  Prog.modify fun d => { d with killswitch := d.killswitch.absorbAlerts }
  let key ← cacheKey call
  let cached ← Prog.read fun d => d.decisions.get key
  match cached with
  | some decision => pure decision
  | none => do
    let decision ← evaluate cfg call
    Prog.modify fun d =>
      { d with decisions := (d.decisions.set key decision).keepNewest decisionCacheMax }
    pure decision

/-! ### Probe outcomes -/

def resolveOwned (n : BreakerName) (ok : Bool) (source : EventSource) : Prog Desk Exc Unit := do
  let now ← Prog.read Desk.now
  Desk.onBreakers (BreakerSet.resolveProbe now n ok now source)
  Prog.modify fun d => { d with probeOwners := d.probeOwners.erase n }

/-- Resolve the probe an order holds on one breaker, if it holds it and it is in flight. -/
def releaseOne (orderHash : OrderHash) (ok : Bool) (source : EventSource) (n : BreakerName) :
    Prog Desk Exc Unit := fun d =>
  if d.probeOwners.get n ≠ some orderHash then (.ok (), d)
  else if !(d.breakers.byName n).probeInflight then
    (.ok (), { d with probeOwners := d.probeOwners.erase n })
  else resolveOwned n ok source d

def releaseEach (orderHash : OrderHash) (ok : Bool) (source : EventSource) :
    List BreakerName → Prog Desk Exc Unit
  | [] => pure ()
  | n :: rest => do
    releaseOne orderHash ok source n
    releaseEach orderHash ok source rest

/-- Resolve every probe in flight an order holds. -/
def releaseOrderProbes (orderHash : OrderHash) (ok : Bool) (source : EventSource) :
    Prog Desk Exc Unit := fun d => releaseEach orderHash ok source d.probeOwners.keys d

end PumpGrok
