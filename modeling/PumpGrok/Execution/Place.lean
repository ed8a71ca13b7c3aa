import PumpGrok.Execution.Marks

/-!
`place` as the stretches between its awaits: up to the first curve reading, to the latency
sleep, to the second reading, and to the end; and what every end does.
-/

namespace PumpGrok

open World

inductive Quoted where
  | buy (quote : BuyQuote)
  | sell (plan : SellPlan)

/-- The await a call is suspended in, with what it carries across. -/
inductive Wait where
  | curve0 (decisionSize : ℤ)
  | sleep (p : Placed) (quoted : Quoted)
  | curve1 (p : Placed) (quoted : Quoted)

inductive Next where
  | wait (w : Wait)
  | done (fill : Fill)

/-- The risk gate, bound to the order. -/
def orderRiskDecision (cfg : DeskConfig) (c : PlaceCall) : Prog World Exc RiskDecision := do
  let decision ← onDesk (check cfg (c.checkCall cfg .accepted))
  if decision.orderHash ≠ orderHashFor c.request then Prog.raise .runtimeError
  else if decision.passed then pure decision
  else refuse c.request decision.reason .riskRefused .accepted {} (c.ledgerSource cfg)

/-- The gates on the first reading. The source gate is for entries only. -/
def orderCurve (cfg : DeskConfig) (c : PlaceCall) (curve0 : Option CurveSnapshot) :
    Prog World Exc CurveSnapshot :=
  match curve0 with
  | none =>
    refuse c.request .noReserves (.mint c.request.mint) .accepted {} (c.ledgerSource cfg)
  | some curve =>
    if c.request.side = .buy ∧ rpcCurvePriceAllowed curve.source = false then
      refuse c.request .dataUnavailable .layoutAssumed .accepted {} (c.ledgerSource cfg)
    else if curve.complete then
      refuse c.request .postGraduationNoReserves (.curveComplete c.request.mint) .accepted {}
        (c.ledgerSource cfg)
    else pure curve

/-- To the first curve reading. -/
def placeStart (cfg : DeskConfig) (c : PlaceCall) : Prog World Exc Next := do
  let repeated ← Prog.read fun w => repeatOutcome w.desk.store c.request
  match repeated with
  | some (.ok fill) => pure (.done fill)
  | some (.error x) => Prog.raise x
  | none => do
    let decision ← orderRiskDecision cfg c
    pure (.wait (.curve0 (decision.sizeLamports.getD 0)))

/-- Size and quote an order at its first reading. -/
def quoteOrder (cfg : DeskConfig) (c : PlaceCall) (decisionSize : ℤ) (curve : CurveSnapshot) :
    Prog World Exc Quoted :=
  match c.request.side with
  | .buy => do
    let q ← buySizing cfg c decisionSize curve
    pure (.buy q)
  | .sell => do
    let (units, filledUnits) ← sellTargets cfg c curve
    let plan ← ofExcept (planSell cfg c.request curve units filledUnits)
    pure (.sell plan)

/-- From the first reading to the latency sleep, with the latency and the drop drawn for it. -/
def placeCurve0 (cfg : DeskConfig) (owner : ℕ) (c : PlaceCall) (decisionSize : ℤ)
    (curve0 : Option CurveSnapshot) (latency : ℤ) (dropped : Bool) : Prog World Exc Next := do
  let curve ← orderCurve cfg c curve0
  let quoted ← quoteOrder cfg c decisionSize curve
  let order ← ulid
  let _ ← ulid
  let lost ← submit cfg c order
  match lost with
  | some fill => pure (.done fill)
  | none => do
    confirmLatency owner order
    pure (.wait (.sleep
      { orderId := order, curve0 := curve, latency := latency, dropped := dropped } quoted))

/-- From the end of the sleep to the second reading. -/
def placeWake (cfg : DeskConfig) (c : PlaceCall) (p : Placed) (quoted : Quoted)
    (overran : Bool) : Prog World Exc Next :=
  if overran then confirmTimeout cfg c p.orderId p.latency
  else do
    confirmCancelCheck cfg c p.orderId
    pure (.wait (.curve1 p quoted))

/-- From the second reading to the end. -/
def placeCurve1 (cfg : DeskConfig) (c : PlaceCall) (p : Placed) (quoted : Quoted)
    (curve1 : Option CurveSnapshot) : Prog World Exc Next := do
  let fill ← match quoted with
    | .buy quote => buyConfirm cfg c p quote curve1
    | .sell plan => sellConfirm cfg c p plan curve1
  pure (.done fill)

/-! ### The end of a call -/

/-- A call settles the probe of the order it wrote, or of a decision with no order. -/
def settleProbes (cfg : DeskConfig) (c : PlaceCall) (owner : ℕ) (ok : Bool) :
    Prog World Exc Unit := fun w =>
  if (w.mem.ownedOrder.get owner).isSome ∨ w.desk.store.byKey c.key = none then
    onDesk (releaseOrderProbes (orderHashFor c.request) ok (c.ledgerSource cfg)) w
  else (.ok (), w)

/-- Remove the barrier entry the call registered. -/
def clearOwned (owner : ℕ) (a : Adapter) : Adapter :=
  match a.ownedOrder.get owner with
  | none => a
  | some order =>
    { a with ownedOrder := a.ownedOrder.erase owner, inflight := a.inflight.erase order }

/-- What a call leaves behind in the adapter's memory. -/
def leave (c : PlaceCall) (owner : ℕ) (ownsKey : Bool) (a : Adapter) : Adapter :=
  clearOwned owner
    (if ownsKey then { a with activePlaces := a.activePlaces.erase c.key } else a)

/-- The end of a call with its outcome: probes settled, its marks removed. An exception while
settling replaces the outcome. -/
def concludePlace (cfg : DeskConfig) (c : PlaceCall) (owner : ℕ) (ownsKey : Bool)
    (outcome : Except Exc Fill) (w : World) : Except Exc Fill × World :=
  let settled := settleProbes cfg c owner outcome.isOk w
  let final := match settled.1 with
    | .ok _ => outcome
    | .error x => .error x
  (final, { settled.2 with mem := leave c owner ownsKey settled.2.mem })

inductive PlaceState where
  | waiting (w : Wait)
  | finished (outcome : Except Exc Fill)

/-- Run one stretch: suspend again, or conclude. -/
def runPlace (cfg : DeskConfig) (c : PlaceCall) (owner : ℕ) (ownsKey : Bool)
    (m : Prog World Exc Next) (w : World) : PlaceState × World :=
  match m w with
  | (.ok (.wait s), w') => (.waiting s, w')
  | (.ok (.done fill), w') =>
    let r := concludePlace cfg c owner ownsKey (.ok fill) w'
    (.finished r.1, r.2)
  | (.error x, w') =>
    let r := concludePlace cfg c owner ownsKey (.error x) w'
    (.finished r.1, r.2)

/-- `cancel`: true while the order is in flight. -/
def cancel (order : ℕ) (w : World) : Bool × World :=
  if order ∈ w.mem.inflight then
    (true, { w with mem := { w.mem with cancelled := insert order w.mem.cancelled } })
  else (false, w)

end PumpGrok
