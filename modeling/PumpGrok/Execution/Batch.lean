import PumpGrok.Execution.Models

/-!
The rows of an accepted order, refusals, and the outcome of a repeated decision.
-/

namespace PumpGrok

open World

/-- The refusal a stored row records. A timed-out order maps to the unknown outcome. -/
def rejectionFromRow (e : Event) (fallback : OrderError) : Exc :=
  match e.payload with
  | .orderRejected p =>
    let err : OrderError :=
      { reason := p.reason, detail := p.detail, stage := p.stage, feesLamports := p.feesLamports }
    if p.reason = .confirmationTimeout then .orderUnknown err else .orderRejected err
  | _ => .orderRejected fallback

/-- The figures a refusal row carries besides its reason. -/
structure RejectFigures where
  orderId : Option ℕ := none
  quoteOut : ℤ := 0
  threshold : ℤ := 0
  confirmOut : ℤ := 0
  fees : ℤ := 0

def rejectKey (r : OrderRequest) (stage : Stage) (reason : Reason) : Key :=
  .reject r.ticketId r.side r.decisionId stage reason

def rejectRow (r : OrderRequest) (reason : Reason) (detail : Detail) (stage : Stage)
    (fig : RejectFigures) (source : EventSource) (ts : ℤ) : Row where
  ts := ts
  source := source
  key := rejectKey r stage reason
  payload := .orderRejected
    { orderId := match fig.orderId with
        | some id => .placed id
        | none => .unplaced r.decisionId
      decisionId := r.decisionId
      reason := reason
      detail := .stored detail r.ticketId r.mint
      stage := stage
      feesLamports := fig.fees
      quoteOut := fig.quoteOut
      otherAmountThreshold := fig.threshold
      confirmOut := fig.confirmOut }

/-- Record a refusal. A repeated one replays the stored row. -/
def reject (r : OrderRequest) (reason : Reason) (detail : Detail) (stage : Stage)
    (fig : RejectFigures) (source : EventSource) : Prog World Exc Exc := fun w =>
  let err : OrderError :=
    { reason := reason, detail := detail, stage := stage, feesLamports := fig.fees }
  Prog.catching
    (do
      let _ ← onStore (LedgerStore.append (rejectRow r reason detail stage fig source w.desk.now))
      pure (Exc.orderRejected err))
    (fun x w' =>
      if x = .integrityError then
        match w'.desk.store.byKey (rejectKey r stage reason) with
        | none => (.error x, w')
        | some stored => (.ok (rejectionFromRow stored err), w')
      else (.error x, w'))
    w

/-- Record a refusal and raise it. -/
def refuse {α : Type} (r : OrderRequest) (reason : Reason) (detail : Detail) (stage : Stage)
    (fig : RejectFigures) (source : EventSource) : Prog World Exc α := do
  let x ← reject r reason detail stage fig source
  Prog.raise x

def fillOf (e : Event) (p : FillRecorded) (order : ℕ) : Fill where
  orderId := order
  decisionId := p.decisionId
  status := if 1 ≤ p.filledFraction then .filled else .partially
  venueTxRef := p.venueTxRef
  filledLamports := p.filledLamports
  filledUnits := p.filledUnits
  filledFraction := p.filledFraction
  priceAvg := p.priceAvg
  realisedSlippageBps := p.realisedSlippageBps
  venueFeeLamports := p.venueFeeLamports
  networkCostLamports := p.networkCostLamports
  ledgerSeq := e.seq

/-- The outcome a row records for an order, if it is its outcome row. -/
def outcomeOf (order : ℕ) (e : Event) : Option (Except Exc Fill) :=
  match e.payload with
  | .fillRecorded p => if p.orderId = order then some (.ok (fillOf e p order)) else none
  | .orderRejected p =>
    if p.orderId = .placed order then
      some (.error (rejectionFromRow e
        { reason := p.reason, detail := p.detail, stage := p.stage,
          feesLamports := p.feesLamports }))
    else none
  | _ => none

def inFlightError : Exc :=
  .orderRejected { reason := .inFlight, detail := .noOutcome, stage := .accepted }

/-- The first outcome recorded for an order, or that it is in flight. -/
def outcomeIn (events : List Event) (order : ℕ) : Except Exc Fill :=
  (events.findSome? (outcomeOf order)).getD (.error inFlightError)

/-- The outcome of a repeated decision; `none` on the first attempt. -/
def repeatOutcome (st : LedgerStore) (r : OrderRequest) : Option (Except Exc Fill) :=
  match st.byKey (.execPlace r.ticketId r.side r.decisionId) with
  | none => none
  | some placed =>
    match placed.payload with
    | .orderPlaced p => some (outcomeIn st.read p.orderId)
    | _ => none

/-- The risk check before the batch; a refusal is recorded and no order is written. -/
def acceptedDecision (cfg : DeskConfig) (c : PlaceCall) : Prog World Exc RiskDecision := do
  let decision ← onDesk (check cfg (c.checkCall cfg .accepted))
  if decision.passed then pure decision
  else refuse c.request decision.reason .acceptedRecheckRefused .accepted {} (c.ledgerSource cfg)

def consumeRow (a : ApprovalRecord) (key : Key) (source : EventSource) (ts : ℤ) : Row where
  ts := ts
  source := source
  key := key
  payload := .approvalRecorded
    { id := a.id
      kind := a.kind
      approvedBy := a.approvedBy
      at_ := a.at_
      ticketId := a.ticketId.getD []
      mint := a.mint.getD []
      sizeLamports := a.sizeLamports.getD 0
      tokenUnits := a.tokenUnits.getD 0
      maxSlippageBps := a.maxSlippageBps.getD 0
      exitRuleId := a.exitRuleId
      rawMessage := a.rawMessage
      consumed := true }

/-- The approval a decision consumes. One the engine issued itself is consumed by rule exits
only. -/
def consumedApproval (d : RiskDecision) (exitReason : Option ExitReason) :
    Option (ApprovalRecord × ℕ) :=
  match d.approval, d.approvalId with
  | some a, some id =>
    if a.approvedBy = .riskEngine ∧ exitReason.any ExitReason.isRule = false then none
    else some (a, id)
  | _, _ => none

def orderPlacedRow (c : PlaceCall) (d : RiskDecision) (order : ℕ) (source : EventSource)
    (ts : ℤ) : Row where
  ts := ts
  source := source
  key := c.key
  payload := .orderPlaced
    { orderId := order
      decisionId := c.request.decisionId
      ticketId := c.request.ticketId
      side := c.request.side
      mint := c.request.mint
      slippageBps := c.request.maxSlippageBps
      sizeLamports := if c.request.side = .buy then c.request.sizeLamports.getD 0 else 0
      tokenUnits := if c.request.side = .sell then c.request.tokenUnits.getD 0 else 0
      approvalId := d.approvalId
      approvalKind := d.approval.map (·.kind) }

/-- The consumption of the approval, when there is one, and the placed order. -/
def orderRows (c : PlaceCall) (d : RiskDecision) (order : ℕ) (source : EventSource) (ts : ℤ) :
    List Row :=
  match consumedApproval d c.reason with
  | none => [orderPlacedRow c d order source ts]
  | some (a, id) =>
    [consumeRow a (.consume (some id)) source ts, orderPlacedRow c d order source ts]

/-- Write the batch. Losing an approval to a concurrent order is a refusal; any other lost key
is the caller's. -/
def writeOrderBatch (cfg : DeskConfig) (c : PlaceCall) (d : RiskDecision) (rows : List Row) :
    Prog World Exc Unit :=
  Prog.catching (do let _ ← onStore (LedgerStore.appendBatch rows); pure ()) fun x => fun w =>
    if x = .integrityError ∧ (consumedApproval d c.reason).isSome ∧
        w.desk.store.byKey (.consume d.approvalId) ≠ none ∧ w.desk.store.byKey c.key = none then
      refuse c.request (.step .approvalMissing) (.approvalConsumed d.approvalId) .accepted {}
        (c.ledgerSource cfg) w
    else (.error x, w)

def appendOrderBatch (cfg : DeskConfig) (c : PlaceCall) (order : ℕ) : Prog World Exc Unit := do
  let decision ← acceptedDecision cfg c
  let ts ← now
  writeOrderBatch cfg c decision (orderRows c decision order (c.ledgerSource cfg) ts)

/-- Write the order; a lost key answers with the outcome of the order that took it. -/
def submit (cfg : DeskConfig) (c : PlaceCall) (order : ℕ) : Prog World Exc (Option Fill) :=
  Prog.catching (do appendOrderBatch cfg c order; pure none) fun x => fun w =>
    if x = .integrityError then
      match repeatOutcome w.desk.store c.request with
      | some (.ok fill) => (.ok (some fill), w)
      | some (.error y) => (.error y, w)
      | none => (.error inFlightError, w)
    else (.error x, w)

end PumpGrok
