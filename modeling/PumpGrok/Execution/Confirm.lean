import PumpGrok.Execution.Batch

/-!
The stretches of an order between its latency sleep and its fill: the timeout, the cancel
check, the gates on the second curve reading, the second risk check and the drop.
-/

namespace PumpGrok

open World

/-- An order whose batch is written, as it waits to be confirmed. -/
structure Placed where
  orderId : ℕ
  curve0 : CurveSnapshot
  latency : ℤ
  dropped : Bool

/-- Enter the latency sleep. -/
def confirmLatency (owner order : ℕ) : Prog World Exc Unit :=
  remember fun a =>
    { a with ownedOrder := a.ownedOrder.set owner order, inflight := insert order a.inflight }

/-- Drop the order from the in-flight set and refuse it. -/
def confirmRefuse {α : Type} (cfg : DeskConfig) (c : PlaceCall) (order : ℕ) (reason : Reason)
    (detail : Detail) : Prog World Exc α := do
  discardInflight order
  refuse c.request reason detail .confirming { orderId := some order } (c.ledgerSource cfg)

/-- The sleep outlasted the confirmation timeout: the outcome is unknown. -/
def confirmTimeout {α : Type} (cfg : DeskConfig) (c : PlaceCall) (order : ℕ) (latency : ℤ) :
    Prog World Exc α := do
  discardInflight order
  let _ ← reject c.request .confirmationTimeout
    (.confirmWait latency cfg.limits.confirmTimeout) .confirming { orderId := some order }
    (c.ledgerSource cfg)
  Prog.raise (.orderUnknown
    { reason := .confirmationTimeout, detail := .outcomeUnknown order, stage := .confirming })

/-- A cancel that landed during the sleep refuses the order. -/
def confirmCancelCheck (cfg : DeskConfig) (c : PlaceCall) (order : ℕ) : Prog World Exc Unit :=
  fun w =>
    if order ∈ w.mem.cancelled then
      (do
        remember fun a =>
          { a with inflight := a.inflight.erase order, cancelled := a.cancelled.erase order }
        refuse c.request .cancelled (.order order) .confirming { orderId := some order }
          (c.ledgerSource cfg) : Prog World Exc Unit) w
    else (.ok (), w)

/-- The gates on the second reading. Sells pass a completed curve. -/
def confirmCurve (cfg : DeskConfig) (c : PlaceCall) (order : ℕ) (curve1 : Option CurveSnapshot) :
    Prog World Exc CurveSnapshot :=
  match curve1 with
  | none => confirmRefuse cfg c order .noReserves (.mint c.request.mint)
  | some curve =>
    if c.request.side = .buy ∧ rpcCurvePriceAllowed curve.source = false then
      confirmRefuse cfg c order .dataUnavailable .layoutAssumed
    else if c.request.side = .buy ∧ curve.complete = true then
      confirmRefuse cfg c order .postGraduationNoReserves
        (.curveCompleteAtConfirming c.request.mint)
    else pure curve

/-- The second risk check, then the drawn drop. -/
def confirmRecheck (cfg : DeskConfig) (c : PlaceCall) (order : ℕ) (dropped : Bool) :
    Prog World Exc RiskDecision := do
  let recheck ← onDesk (check cfg (c.checkCall cfg .confirming))
  if recheck.passed = false then confirmRefuse cfg c order recheck.reason .confirmingRecheck
  else if dropped then confirmRefuse cfg c order .txDropped .seededDrop
  else pure recheck

end PumpGrok
