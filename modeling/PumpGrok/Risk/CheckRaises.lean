import PumpGrok.Lib.Raises
import PumpGrok.Risk.Engine

/-!
What a check raises. An order ends with a refusal or the unknown outcome, and neither ever leaves
the engine: what a check or the release of a probe raises is its own, and no check refuses for a
confirmation timeout.
-/

namespace PumpGrok

/-- The exceptions an order ends with. -/
def Exc.isOutcome : Exc → Bool
  | .orderRejected _ | .orderUnknown _ => true
  | _ => false

/-- An exception that is no outcome of an order. -/
def Exc.Inner (x : Exc) : Prop := x.isOutcome = false

/-- What ends a walk early is a refusal for a reason of the engine, or an exception that is no
outcome of an order. -/
def StepExc.Inner : StepExc → Prop
  | .fail reason => reason ≠ .confirmationTimeout
  | .exc x => x.Inner

open Prog

section Stores

lemma raises_append (row : Row) : Raises Exc.Inner (LedgerStore.append row) := by
  intro st x h
  unfold LedgerStore.append at h
  split_ifs at h <;> obtain rfl := Except.error.inj h <;> rfl

lemma raises_appendSuppressing (xs : List Exc) (row : Row) :
    Raises Exc.Inner (LedgerStore.appendSuppressing xs row) := by
  intro st x h
  rcases LedgerStore.appendSuppressing_run xs row st with ⟨-, -, hr⟩ | ⟨y, hy, hr⟩
  · rw [hr] at h
    exact nomatch h
  · rw [hr] at h
    dsimp only at h
    split_ifs at h
    obtain rfl := Except.error.inj h
    exact (raises_append row).run hy

end Stores

section Breakers

open BreakerSet

lemma raises_transition (now : ℤ) (n : BreakerName) (before : BreakerState) (ts : ℤ)
    (source : EventSource) (probeOk : Bool) :
    Raises Exc.Inner (transition now n before ts source probeOk) := by
  have hread : Raises Exc.Inner (readState now n) := fun _ _ h => nomatch h
  have hstore : ∀ f : LedgerStore → Row,
      Raises Exc.Inner (BreakerSet.onStore fun st =>
        LedgerStore.appendSuppressing [.integrityError] (f st) st) := fun f =>
    Raises.on fun st x hx => raises_appendSuppressing _ (f st) st x hx
  refine hread.bind fun after => ?_
  refine .ite (.pure _) (.ite ?_ (.ite ?_ (.pure _)))
  · exact hstore (tripRow n ts source)
  · exact hstore (resetRow n ts source probeOk)

lemma raises_refresh (now ts : ℤ) (source : EventSource) (equity : ℤ) :
    Raises Exc.Inner (refresh now ts source equity) := by
  have hone : ∀ before n, Raises Exc.Inner (refreshOne now ts source before n) := fun before n =>
    (Raises.modify _).bind fun _ => raises_transition now n (before n) ts source false
  refine (Raises.read _).bind fun before => (Raises.modify _).bind fun _ => ?_
  exact (hone _ _).bind fun _ => (hone _ _).bind fun _ => hone _ _

lemma raises_resolveProbe (now : ℤ) (n : BreakerName) (ok : Bool) (ts : ℤ) (source : EventSource) :
    Raises Exc.Inner (BreakerSet.resolveProbe now n ok ts source) := by
  have hread : Raises Exc.Inner (readState now n) := fun _ _ h => nomatch h
  refine hread.bind fun before => ?_
  refine (Raises.resultOf fun s x h => ?_).bind fun _ => raises_transition _ _ _ _ _ _
  unfold Breaker.resolveProbe at h
  dsimp only at h
  split_ifs at h
  obtain rfl := Except.error.inj h
  rfl

end Breakers

section Desks

lemma raises_releaseOrderProbes (orderHash : OrderHash) (ok : Bool) (source : EventSource) :
    Raises Exc.Inner (releaseOrderProbes orderHash ok source) := by
  have howned : ∀ n, Raises Exc.Inner (resolveOwned n ok source) := fun n =>
    (Raises.read _).bind fun _ =>
      (Raises.on (raises_resolveProbe _ _ _ _ _)).bind fun _ => .modify _
  have hone : ∀ n, Raises Exc.Inner (releaseOne orderHash ok source n) := by
    intro n d x h
    unfold releaseOne at h
    split_ifs at h
    · exact howned n d x h
  have heach : ∀ ns, Raises Exc.Inner (releaseEach orderHash ok source ns) := by
    intro ns
    induction ns with
    | nil => exact .pure _
    | cons n ns ih => exact (hone n).bind fun _ => ih
  exact fun d x h => heach _ d x h

lemma raises_appendHalt (row : Row) : Raises Exc.Inner (appendHalt row) :=
  raises_appendSuppressing _ row

lemma raises_breach (cfg : DeskConfig) (state : LedgerState) (equity : ℤ) (source : EventSource) :
    Raises Exc.Inner (breach cfg state equity source) := by
  have hwrite : ∀ row (r : HaltReason), Raises Exc.Inner
      (do appendHalt row; pure (some r) : Prog LedgerStore Exc (Option HaltReason)) := fun row r =>
    (raises_appendHalt row).bind fun _ => .pure _
  have hdetect : ∀ ts, Raises Exc.Inner (detectBreach cfg state equity ts source) := by
    intro ts st x h
    unfold detectBreach at h
    dsimp only at h
    split_ifs at h
    all_goals first
      | exact hwrite _ _ st x h
      | exact Except.error.inj h ▸ rfl
  exact fun d x h => Raises.on (hdetect d.now) d x h

lemma raises_pollKill (source : EventSource) : Raises Exc.Inner (pollKill source) := by
  have hobserve : ∀ ts, Raises Exc.Inner (KillSwitch.observe ts source) := by
    intro ts s x h
    unfold KillSwitch.observe at h
    dsimp only at h
    split_ifs at h
    · exact raises_appendSuppressing _ _ _ x h
  refine (Raises.read _).bind fun ts => ?_
  exact (Raises.on (hobserve ts)).bind fun _ => fun _ _ h => nomatch h

end Desks

/-! ### The walk -/

section Walks

open Walk

lemma raises_onDesk {α : Type} {m : Prog Desk Exc α} (h : Raises Exc.Inner m) :
    Raises StepExc.Inner (Walk.onDesk m) := by
  intro s x hx
  unfold Walk.onDesk at hx
  rcases hm : m s.1 with ⟨e | a, d⟩
  · rw [hm] at hx
    obtain rfl := Except.error.inj hx
    exact h.run hm
  · rw [hm] at hx
    exact nomatch hx

lemma raises_fail {α : Type} {reason : Reason} (h : reason ≠ .confirmationTimeout) :
    Raises StepExc.Inner (Prog.raise (.fail reason) : Walk α) := .raise h

lemma raises_failIf {c : Prop} [Decidable c] {reason : Reason} (h : reason ≠ .confirmationTimeout) :
    Raises StepExc.Inner (failIf c reason) := Raises.raiseIf h

lemma raises_ctx : Raises StepExc.Inner Walk.ctx := .read _

lemma raises_mark (step : StepId) : Raises StepExc.Inner (mark step) := .modify _

lemma raises_update (f : StepCtx → StepCtx) : Raises StepExc.Inner (update f) := .modify _

lemma raises_capTo (step : StepId) (cap : ℤ) : Raises StepExc.Inner (capTo step cap) := .modify _

lemma raises_assertion {α : Type} :
    Raises StepExc.Inner (Prog.raise (.exc .assertionError) : Walk α) := .raise rfl

variable (cfg : DeskConfig)

lemma raises_verifyStep (source : EventSource) : Raises Exc.Inner (verifyStep source) := by
  intro d x h
  unfold verifyStep at h
  split at h
  · exact nomatch h
  · exact ((Raises.on (raises_appendHalt _)).bind fun _ => .pure _) _ x h

lemma raises_stepApprovalMissing : Raises StepExc.Inner (stepApprovalMissing cfg) := by
  refine (raises_mark _).bind fun _ => raises_ctx.bind fun c => .ite ?_ ?_
  · have hmint : Raises Exc.Inner (mintAutonomous c.order c.call.exitReason) :=
      fun _ _ h => nomatch h
    exact (raises_onDesk hmint).bind fun a => raises_update _
  · rcases c.approvals c.order.approvalId with - | a
    · exact raises_fail nofun
    · exact .ite (raises_fail nofun) (raises_update _)

lemma raises_stepApprovalMismatch : Raises StepExc.Inner stepApprovalMismatch := by
  refine (raises_mark _).bind fun _ => raises_ctx.bind fun c => ?_
  rcases c.approval with - | a
  · exact raises_fail nofun
  · exact .ite (.pure _) (raises_failIf nofun)

lemma raises_stepBreakerOpen : Raises StepExc.Inner stepBreakerOpen := by
  refine (raises_mark _).bind fun _ => raises_ctx.bind fun c =>
    (raises_onDesk (.read _)).bind fun degraded => .ite ?_ (raises_failIf nofun)
  have hwrite : Raises Exc.Inner (writeReputationEscalation c.call.source) :=
    fun d x h => Raises.on (raises_appendSuppressing _ _) d x h
  exact (raises_onDesk hwrite).bind fun _ => raises_fail nofun

/-- A buy steps on with its size, a walk without one raises. -/
lemma raises_sized {step : StepId} {f : StepCtx → ℤ → Walk Unit}
    (hf : ∀ c size, Raises StepExc.Inner (f c size)) : Raises StepExc.Inner (do
      mark step
      let c ← Walk.ctx
      if c.isBuy then
        match c.finalSize with
        | none => Prog.raise (.exc .assertionError)
        | some size => f c size
      else pure () : Walk Unit) := by
  refine (raises_mark _).bind fun _ => raises_ctx.bind fun c => .ite ?_ (.pure _)
  rcases c.finalSize with - | size
  · exact raises_assertion
  · exact hf c size

lemma raises_stepMaxTradeFraction : Raises StepExc.Inner (stepMaxTradeFraction cfg) :=
  raises_sized fun _ _ => .ite (raises_capTo _ _) (.pure _)

lemma raises_stepMaxTokenFraction : Raises StepExc.Inner (stepMaxTokenFraction cfg) :=
  raises_sized fun _ _ => .ite ((raises_failIf (by simp)).bind fun _ => raises_capTo _ _) (.pure _)

lemma raises_stepSizeTooSmall : Raises StepExc.Inner (stepSizeTooSmall cfg) :=
  raises_sized fun _ _ => raises_failIf nofun

lemma raises_stepBelowLiquidityFloor : Raises StepExc.Inner (stepBelowLiquidityFloor cfg) := by
  refine raises_sized fun c size => (raises_onDesk (.read _)).bind fun reserves => ?_
  rcases reserves with - | r
  · exact raises_fail nofun
  · exact raises_failIf nofun

lemma raises_runStep (step : StepId) : Raises StepExc.Inner (runStep cfg step) := by
  have hguard : ∀ (step x : StepId) (p : StepCtx → Prop)
      [∀ c, Decidable (p c)], Raises StepExc.Inner (do
        mark step
        let c ← Walk.ctx
        failIf (p c) (.step x) : Walk Unit) := fun _ _ _ _ =>
    (raises_mark _).bind fun _ => raises_ctx.bind fun _ => raises_failIf nofun
  have hread : ∀ (step x : StepId) (α : Type) (g : StepCtx → Desk → α)
      (p : StepCtx → α → Prop) [∀ c a, Decidable (p c a)], Raises StepExc.Inner (do
        mark step
        let c ← Walk.ctx
        let a ← Walk.onDesk (Prog.read (g c))
        failIf (p c a) (.step x) : Walk Unit) := fun _ _ _ _ _ _ =>
    (raises_mark _).bind fun _ => raises_ctx.bind fun _ =>
      (raises_onDesk (.read _)).bind fun _ => raises_failIf nofun
  cases step with
  | ledgerInconsistent =>
    exact (raises_mark _).bind fun _ => raises_ctx.bind fun c =>
      (raises_onDesk (raises_verifyStep c.call.source)).bind fun _ => raises_failIf nofun
  | breakerOpen => exact raises_stepBreakerOpen
  | liveGate =>
    exact (raises_mark _).bind fun _ => (raises_onDesk (.read _)).bind fun _ => raises_failIf nofun
  | approvalMissing => exact raises_stepApprovalMissing cfg
  | approvalMismatch => exact raises_stepApprovalMismatch
  | maxTradeFraction => exact raises_stepMaxTradeFraction cfg
  | maxTokenFraction => exact raises_stepMaxTokenFraction cfg
  | dailyLossHalt =>
    exact (raises_mark _).bind fun _ => raises_ctx.bind fun c =>
      (raises_onDesk (raises_breach cfg _ _ _)).bind fun _ => raises_failIf nofun
  | drawdownHalt =>
    exact (raises_mark _).bind fun _ => (raises_onDesk (.read _)).bind fun _ =>
      (raises_update _).bind fun _ => raises_ctx.bind fun c =>
        (raises_onDesk (raises_breach cfg _ _ _)).bind fun _ => raises_failIf nofun
  | sizeTooSmall => exact raises_stepSizeTooSmall cfg
  | belowLiquidityFloor => exact raises_stepBelowLiquidityFloor cfg
  | killSwitch => exact hguard _ _ _
  | halted => exact hguard _ _ _
  | maxTradesPerDay => exact hguard _ _ _
  | maxOpenPositions => exact hguard _ _ _
  | alreadyOpen => exact hguard _ _ _
  | seatMayTrade => exact hread _ _ _ _ _
  | creatorAlreadyOpen => exact hread _ _ _ _ _
  | dataStale => exact hread _ _ _ _ _

lemma raises_walkSteps (xs : List StepId) : Raises StepExc.Inner (walkSteps cfg xs) := by
  induction xs with
  | nil => exact .pure _
  | cons x xs ih =>
    exact raises_ctx.bind fun _ => .ite ih ((raises_runStep cfg x).bind fun _ => ih)

lemma raises_claimProbe (orderHash : OrderHash) (probes : ProbeView) :
    Raises StepExc.Inner (claimProbe orderHash probes) := by
  refine raises_ctx.bind fun c => .ite (.pure _) (.ite (raises_update _) ?_)
  rcases probes.halfAvail with - | ⟨n, rest⟩
  · exact raises_fail nofun
  · have hadmit : Raises Exc.Inner (admitOwned n orderHash) := fun _ _ h => nomatch h
    exact (raises_onDesk hadmit).bind fun _ => .ite (raises_update _) (raises_fail nofun)

end Walks

section Checks

variable (cfg : DeskConfig) (call : CheckCall)

lemma raises_walk (orderHash : OrderHash) (probes : ProbeView) : Raises StepExc.Inner (do
    walkSteps cfg stepIds
    confirmHolding
    claimProbe orderHash probes : Walk Unit) := by
  have hconfirm : Raises StepExc.Inner confirmHolding :=
    raises_ctx.bind fun _ => .ite (.pure _) (raises_failIf nofun)
  exact (raises_walkSteps cfg _).bind fun _ => hconfirm.bind fun _ => raises_claimProbe _ _

lemma raises_concludeWalk (orderHash : OrderHash) (c : StepCtx) {walk : Walk Unit}
    (hw : Raises StepExc.Inner walk) : Raises Exc.Inner (concludeWalk orderHash c walk) := by
  intro d x h
  unfold concludeWalk at h
  rcases hr : walk (d, c) with ⟨(reason | y) | u, d', c'⟩
  · rw [hr] at h
    exact nomatch h
  · rw [hr] at h
    obtain rfl := Except.error.inj h
    exact hw.run hr
  · rw [hr] at h
    exact nomatch h

lemma concludeWalk_reason {orderHash : OrderHash} {c : StepCtx} {walk : Walk Unit}
    (hw : Raises StepExc.Inner walk) {d d' : Desk} {dec : RiskDecision}
    (h : concludeWalk orderHash c walk d = (.ok dec, d')) : dec.reason ≠ .confirmationTimeout := by
  unfold concludeWalk at h
  rcases hr : walk (d, c) with ⟨(reason | y) | u, d₁, c'⟩
  · rw [hr] at h
    obtain rfl := Except.ok.inj (Prod.mk.inj h).1
    exact hw.run hr
  · rw [hr] at h
    exact nomatch (Prod.mk.inj h).1
  · rw [hr] at h
    obtain rfl := Except.ok.inj (Prod.mk.inj h).1
    exact nofun

lemma raises_evaluate : Raises Exc.Inner (evaluate cfg call) := by
  have hnew : ∀ state equity probes, Raises Exc.Inner (newCtx cfg call state equity probes) :=
    fun state equity probes => (raises_pollKill _).bind fun _ => fun _ _ h => nomatch h
  have hprobes : ∀ orderHash, Raises Exc.Inner (snapshotProbes orderHash) :=
    fun _ _ _ h => nomatch h
  exact (Raises.read _).bind fun state => (Raises.modify _).bind fun _ =>
    (Raises.read _).bind fun now => (Raises.on (raises_refresh _ _ _ _)).bind fun _ =>
      (hprobes _).bind fun probes => (hnew _ _ _).bind fun ctx =>
        raises_concludeWalk _ _ (raises_walk cfg _ _)

/-- An evaluation refuses for a reason of its own. -/
lemma evaluate_reason {d d' : Desk} {dec : RiskDecision}
    (h : evaluate cfg call d = (.ok dec, d')) : dec.reason ≠ .confirmationTimeout := by
  unfold evaluate at h
  obtain ⟨state, d₁, -, h⟩ := bind_ok_iff.mp h
  obtain ⟨-, d₂, -, h⟩ := bind_ok_iff.mp h
  obtain ⟨now, d₃, -, h⟩ := bind_ok_iff.mp h
  obtain ⟨-, d₄, -, h⟩ := bind_ok_iff.mp h
  obtain ⟨probes, d₅, -, h⟩ := bind_ok_iff.mp h
  obtain ⟨ctx, d₆, -, h⟩ := bind_ok_iff.mp h
  exact concludeWalk_reason (raises_walk cfg _ _) h

/-- **What a check raises** is no outcome of an order. -/
theorem raises_check : Raises Exc.Inner (check cfg call) := by
  have hkey : Raises Exc.Inner (cacheKey call) := fun _ _ h => nomatch h
  refine (Raises.modify _).bind fun _ => hkey.bind fun key => (Raises.read _).bind fun cached => ?_
  rcases cached with - | decision
  · exact (raises_evaluate cfg call).bind fun _ => (Raises.modify _).bind fun _ => .pure _
  · exact .pure _

end Checks

end PumpGrok
