import PumpGrok.Risk.CheckFrame

/-!
What a passed check has seen. Each step of the walk that is not skipped found its condition met
in the state the evaluation began from.
-/

namespace PumpGrok

open Desk

/-! ### The walk, one step at a time -/

section Steps

variable {cfg : DeskConfig} {s s' : Desk × StepCtx}

lemma ctx_run (s : Desk × StepCtx) : Walk.ctx s = (.ok s.2, s) := rfl

lemma walkSteps_cons {x : StepId} {xs : List StepId}
    (h : walkSteps cfg (x :: xs) s = (.ok (), s')) :
    ∃ s₁, (if skipStep x s.2.call.stage s.2.isExitSell then s₁ = s
        else runStep cfg x s = (.ok (), s₁)) ∧ walkSteps cfg xs s₁ = (.ok (), s') := by
  rw [walkSteps, Prog.bind_run_ok (ctx_run s)] at h
  split_ifs at h ⊢ with hskip
  · exact ⟨s, rfl, h⟩
  · obtain ⟨⟨⟩, s₁, h₁, h₂⟩ := Prog.bind_ok_iff.mp h
    exact ⟨s₁, h₁, h₂⟩

/-- A finished walk ran each of its steps, between the steps before and after it. -/
lemma walkSteps_split {x : StepId} {xs ys : List StepId}
    (h : walkSteps cfg (xs ++ x :: ys) s = (.ok (), s')) :
    ∃ s₁ s₂, walkSteps cfg xs s = (.ok (), s₁) ∧
      (if skipStep x s₁.2.call.stage s₁.2.isExitSell then s₂ = s₁
        else runStep cfg x s₁ = (.ok (), s₂)) ∧
      walkSteps cfg ys s₂ = (.ok (), s') := by
  induction xs generalizing s with
  | nil =>
    obtain ⟨s₂, h₁, h₂⟩ := walkSteps_cons h
    exact ⟨s, s₂, rfl, h₁, h₂⟩
  | cons y xs ih =>
    obtain ⟨t, hy, ht⟩ := walkSteps_cons h
    obtain ⟨s₁, s₂, hs₁, hx, hs₂⟩ := ih ht
    refine ⟨s₁, s₂, ?_, hx, hs₂⟩
    rw [walkSteps, Prog.bind_run_ok (ctx_run s)]
    split_ifs at hy ⊢ with hskip
    · rwa [← hy]
    · rw [Prog.bind_run_ok hy]
      exact hs₁

/-- Only the drawdown step folds the ledger again. -/
lemma walkSteps_state (cfg : DeskConfig) {xs : List StepId} (h : .drawdownHalt ∉ xs) :
    Prog.Keeps (Prog.Same fun s : Desk × StepCtx => s.2.state) (walkSteps cfg xs) := by
  refine walkSteps_keeps quietly_frame (fun _ _ _ _ => rfl) cfg xs fun x hx d c c' hm => ?_
  cases hm with
  | refold => exact absurd hx h
  | _ => rfl

lemma walkSteps_equity (cfg : DeskConfig) {xs : List StepId} (h : .drawdownHalt ∉ xs) :
    Prog.Keeps (Prog.Same fun s : Desk × StepCtx => s.2.equity) (walkSteps cfg xs) := by
  refine walkSteps_keeps quietly_frame (fun _ _ _ _ => rfl) cfg xs fun x hx d c c' hm => ?_
  cases hm with
  | refold => exact absurd hx h
  | _ => rfl

/-- Only the two cap steps change the size. -/
lemma walkSteps_finalSize (cfg : DeskConfig) {xs : List StepId} (h₁ : .maxTradeFraction ∉ xs)
    (h₂ : .maxTokenFraction ∉ xs) :
    Prog.Keeps (Prog.Same fun s : Desk × StepCtx => s.2.finalSize) (walkSteps cfg xs) := by
  refine walkSteps_keeps quietly_frame (fun _ _ _ _ => rfl) cfg xs fun x hx d c c' hm => ?_
  cases hm with
  | tradeCap => exact absurd hx h₁
  | tokenCap => exact absurd hx h₂
  | _ => rfl

lemma confirmHolding_run {u : Unit} (h : confirmHolding s = (.ok u, s')) : s' = s := by
  unfold confirmHolding at h
  rw [Prog.bind_run_ok (ctx_run s)] at h
  split_ifs at h with hc
  · exact (Prod.mk.inj h).2.symm
  · exact (Prog.raiseIf_ok_iff.mp h).2

lemma claimProbe_finalSize (orderHash : OrderHash) (probes : ProbeView) :
    Prog.Keeps (Prog.Same fun s : Desk × StepCtx => s.2.finalSize)
      (claimProbe orderHash probes) := by
  have hprobe : Prog.Keeps (Prog.Same fun s : Desk × StepCtx => s.2.finalSize)
      (Walk.update fun c => { c with probe := true }) := fun _ => rfl
  refine Prog.Keeps.bind (.read _) fun c => .ite (.pure _) (.ite hprobe ?_)
  rcases probes.halfAvail with - | ⟨n, -⟩
  · exact .raise _
  · refine (onDesk_keeps (fun _ _ _ _ => rfl) (admitOwned_quietly n orderHash)).bind fun _ => ?_
    exact .ite hprobe (.raise _)

/-- A step that marks itself, reads the context and fails on a condition. -/
lemma failIf_step {x : StepId} {p : StepCtx → Prop} [∀ c, Decidable (p c)] {r : Reason}
    (h : (do
      Walk.mark x
      let c ← Walk.ctx
      Walk.failIf (p c) r : Walk Unit) s = (.ok (), s')) :
    ¬ p { s.2 with evaluated := s.2.evaluated ++ [x] } := by
  unfold Walk.mark Walk.update at h
  rw [Prog.bind_run_ok (Prog.modify_run _ _), Prog.bind_run_ok (ctx_run _)] at h
  exact (Prog.raiseIf_ok_iff.mp h).1

end Steps

@[simp] lemma isBuy_evaluated (c : StepCtx) (xs : List StepId) :
    ({ c with evaluated := xs } : StepCtx).isBuy = c.isBuy := rfl

/-- The trade cap sizes a buy within it. -/
lemma tradeStep_run {cfg : DeskConfig} {s s' : Desk × StepCtx} (hb : s.2.isBuy = true)
    (h : runStep cfg .maxTradeFraction s = (.ok (), s')) :
    ∃ n, s'.2.finalSize = some n ∧ n ≤ truncInt (cfg.budget.maxTradeFraction * s.2.equity) ∧
      (∃ m, s.2.finalSize = some m ∧ n ≤ m) ∧
      s'.2 = { s.2 with
        evaluated := s'.2.evaluated, finalSize := some n, capped := s'.2.capped,
        caps := s'.2.caps } := by
  simp only [runStep, stepMaxTradeFraction, Walk.mark, Walk.update] at h
  rw [Prog.bind_run_ok (Prog.modify_run _ _), Prog.bind_run_ok (ctx_run _)] at h
  simp only [isBuy_evaluated, hb, if_true] at h
  rcases hf : s.2.finalSize with - | size
  · simp [hf] at h
  · simp only [hf] at h
    split_ifs at h with hcap
    · obtain rfl := (Prod.mk.inj h).2
      exact ⟨_, rfl, le_rfl, ⟨size, rfl, hcap.le⟩, rfl⟩
    · obtain rfl := (Prod.mk.inj h).2
      exact ⟨size, rfl, not_lt.mp hcap, ⟨size, rfl, le_rfl⟩, rfl⟩

/-- The token cap leaves a buy its size, or lowers it to the cap. -/
lemma tokenStep_run {cfg : DeskConfig} {s s' : Desk × StepCtx} {n : ℤ} (hb : s.2.isBuy = true)
    (hn : s.2.finalSize = some n) (h : runStep cfg .maxTokenFraction s = (.ok (), s')) :
    ∃ n', s'.2.finalSize = some n' ∧ n' ≤ n ∧
      n' ≤ truncInt (cfg.budget.maxTokenFraction * s.2.equity) -
        ((s.2.state.positions.get s.2.order.mint).map (·.costBasisLamports)).getD 0 := by
  simp only [runStep, stepMaxTokenFraction, Walk.mark, Walk.update] at h
  rw [Prog.bind_run_ok (Prog.modify_run _ _), Prog.bind_run_ok (ctx_run _)] at h
  simp only [isBuy_evaluated, hb, if_true] at h
  simp only [hn] at h
  split_ifs at h with hcap
  · obtain ⟨⟨⟩, s₁, hfail, h⟩ := Prog.bind_ok_iff.mp h
    obtain ⟨-, rfl⟩ := Prog.raiseIf_ok_iff.mp hfail
    obtain rfl := (Prod.mk.inj h).2
    exact ⟨_, rfl, hcap.le, le_rfl⟩
  · obtain rfl := (Prod.mk.inj h).2
    exact ⟨n, rfl, le_rfl, not_lt.mp hcap⟩

/-! ### From an evaluation to its walk -/

/-- The walk of an evaluation, after its preparations. -/
def evaluationWalk (cfg : DeskConfig) (call : CheckCall) (probes : ProbeView) : Walk Unit := do
  walkSteps cfg stepIds
  confirmHolding
  claimProbe (orderHashFor call.order) probes

/-- What an evaluation prepares: the desk it walks on and the context it starts with. -/
structure Prepared (cfg : DeskConfig) (call : CheckCall) (d d₁ : Desk) (probes : ProbeView)
    (c : StepCtx) : Prop where
  quiet : d.Quietly d₁
  call_eq : c.call = call
  state_eq : c.state = d.fold cfg
  equity_eq : c.equity = equityForHalts cfg (d.fold cfg)
  size_eq : c.finalSize = if call.order.side = .buy then call.order.sizeLamports else none

lemma newCtx_ok {cfg : DeskConfig} {call : CheckCall} {state : LedgerState} {equity : ℤ}
    {probes : ProbeView} {d d' : Desk} {c : StepCtx}
    (h : newCtx cfg call state equity probes d = (.ok c, d')) :
    c.call = call ∧ c.state = state ∧ c.equity = equity ∧
      c.finalSize = if call.order.side = .buy then call.order.sizeLamports else none := by
  obtain ⟨kill, d₁, -, h₁⟩ := Prog.bind_ok_iff.mp h
  obtain ⟨rfl, -⟩ := Prod.mk.inj h₁ |>.imp_left Except.ok.inj
  simp

/-- An evaluation is its preparations, then its walk. -/
lemma evaluate_ok {cfg : DeskConfig} {call : CheckCall} {d d' : Desk} {dec : RiskDecision}
    (h : evaluate cfg call d = (.ok dec, d')) :
    ∃ d₁ probes c, Prepared cfg call d d₁ probes c ∧
      concludeWalk (orderHashFor call.order) c (evaluationWalk cfg call probes) d₁ =
        (.ok dec, d') := by
  unfold evaluate at h
  rw [Prog.bind_run_ok (Prog.read_run _ _), Prog.bind_run_ok (Prog.modify_run _ _),
    Prog.bind_run_ok (Prog.read_run _ _)] at h
  obtain ⟨⟨⟩, d₂, h₂, h⟩ := Prog.bind_ok_iff.mp h
  obtain ⟨probes, d₃, h₃, h⟩ := Prog.bind_ok_iff.mp h
  obtain ⟨c, d₁, h₁, h⟩ := Prog.bind_ok_iff.mp h
  obtain ⟨hcall, hstate, hequity, hsize⟩ := newCtx_ok h₁
  refine ⟨d₁, probes, c, ⟨?_, hcall, hstate, hequity, hsize⟩, h⟩
  refine (quietly_memory d d.killswitch (d.breakers.syncFromLedger d.now d.store.read)
    d.probeOwners).trans ?_
  refine ((onBreakers_quietly (BreakerSet.refresh_grown _ _ _ _)).run h₂).trans ?_
  exact ((snapshotProbes_quietly _).run h₃).trans ((newCtx_quietly _ _ _ _ _).run h₁)

/-- A passed decision comes from a walk that finished. -/
lemma concludeWalk_passed {h : OrderHash} {c : StepCtx} {walk : Walk Unit} {d d' : Desk}
    {dec : RiskDecision} (hw : concludeWalk h c walk d = (.ok dec, d')) (hp : dec.passed = true) :
    ∃ c', walk (d, c) = (.ok (), d', c') ∧ dec = decisionOf h c' none := by
  unfold concludeWalk at hw
  split at hw
  · obtain ⟨rfl, rfl⟩ := (Prod.mk.inj hw).imp_left Except.ok.inj
    exact ⟨_, by assumption, rfl⟩
  · obtain ⟨rfl, -⟩ := (Prod.mk.inj hw).imp_left Except.ok.inj
    simp [decisionOf] at hp
  · simp at hw

/-! ### What each step has found -/

def stepsBefore (x : StepId) : List StepId := stepIds.takeWhile (· ≠ x)

def stepsAfter (x : StepId) : List StepId := (stepIds.dropWhile (· ≠ x)).tail

lemma stepIds_split (x : StepId) : stepIds = stepsBefore x ++ x :: stepsAfter x := by
  cases x <;> rfl

section Passed

variable {cfg : DeskConfig} {call : CheckCall} {d d' : Desk} {dec : RiskDecision}

/-- **A passed step.** In a check that passed, a step that was not skipped ran to its end, in a
state reached from the evaluation's first one. -/
theorem passed_step (h : evaluate cfg call d = (.ok dec, d')) (hp : dec.passed = true) (x : StepId)
    (hskip : ∀ c : StepCtx, c.call = call → skipStep x call.stage c.isExitSell = false) :
    ∃ s₁ s₂ s₃ c', runStep cfg x s₁ = (.ok (), s₂) ∧ d.Quietly s₁.1 ∧ s₁.2.call = call ∧
      (.drawdownHalt ∉ stepsBefore x → s₁.2.state = d.fold cfg ∧
        s₁.2.equity = equityForHalts cfg (d.fold cfg)) ∧
      walkSteps cfg (stepsAfter x) s₂ = (.ok (), s₃) ∧
      dec = decisionOf (orderHashFor call.order) c' none ∧ c'.call = call ∧
      c'.finalSize = s₃.2.finalSize ∧
      (.maxTradeFraction ∉ stepsBefore x → .maxTokenFraction ∉ stepsBefore x →
        s₁.2.finalSize = if call.order.side = .buy then call.order.sizeLamports else none) := by
  obtain ⟨d₁, probes, c, hprep, hconc⟩ := evaluate_ok h
  obtain ⟨c', hwalk, rfl⟩ := concludeWalk_passed hconc hp
  obtain ⟨⟨⟩, s₃, hsteps, hrest⟩ := Prog.bind_ok_iff.mp hwalk
  obtain ⟨⟨⟩, s₄, hhold, hclaim⟩ := Prog.bind_ok_iff.mp hrest
  obtain rfl := confirmHolding_run hhold
  rw [stepIds_split x] at hsteps
  obtain ⟨s₁, s₂, hbefore, hx, hafter⟩ := walkSteps_split hsteps
  have hon := (walkSteps_onward cfg (stepsBefore x)).run hbefore
  have hcall : s₁.2.call = call := hon.call.trans hprep.call_eq
  rw [if_neg (by rw [hcall, hskip s₁.2 hcall]; simp)] at hx
  refine ⟨s₁, s₂, s₄, c', hx, hprep.quiet.trans hon.desk, hcall, fun hd => ?_, hafter, rfl, ?_,
    (claimProbe_finalSize _ _).run hclaim,
    fun h₁ h₂ => ((walkSteps_finalSize cfg h₁ h₂).run hbefore).trans hprep.size_eq⟩
  · exact ⟨((walkSteps_state cfg hd).run hbefore).trans hprep.state_eq,
      ((walkSteps_equity cfg hd).run hbefore).trans hprep.equity_eq⟩
  · have h₁ := (claimProbe_onward _ _).run hclaim
    have h₂ := (walkSteps_onward cfg (stepsAfter x)).run hafter
    have h₃ := (runStep_onward cfg x).run hx
    exact h₁.call.trans (h₂.call.trans (h₃.call.trans hcall))

lemma isExitSell_buy {c : StepCtx} (hb : call.order.side = .buy) (hc : c.call = call) :
    c.isExitSell = false := by
  simp [StepCtx.isExitSell, StepCtx.isBuy, hc, hb]

lemma isBuy_of {c : StepCtx} (hb : call.order.side = .buy) (hc : c.call = call) :
    c.isBuy = true := by
  simp [StepCtx.isBuy, hc, hb]

lemma skipStep_buy {x : StepId} {stage : Stage} (h : stage = .accepted ∨ recheckStep x = true) :
    skipStep x stage false = false := by
  rcases h with rfl | h <;> simp [skipStep, *]

variable (h : evaluate cfg call d = (.ok dec, d')) (hp : dec.passed = true)
  (hb : call.order.side = .buy)
include h hp hb

/-- A passed buy is sized, and not below the smallest trade. -/
lemma passed_size : ∃ n, dec.sizeLamports = some n ∧ cfg.limits.minTradeLamports ≤ n := by
  obtain ⟨s₁, s₂, s₃, c', hx, -, hcall, -, hafter, rfl, hcall', hsize, -⟩ :=
    passed_step h hp .sizeTooSmall fun c hc => by
      rw [isExitSell_buy hb hc]
      exact skipStep_buy (.inr rfl)
  have hkeep := (walkSteps_finalSize cfg (by decide) (by decide)).run hafter
  have hbuy : s₁.2.isBuy = true := isBuy_of hb hcall
  simp only [runStep, stepSizeTooSmall, Walk.mark, Walk.update] at hx
  rw [Prog.bind_run_ok (Prog.modify_run _ _), Prog.bind_run_ok (ctx_run _)] at hx
  simp only [isBuy_evaluated, hbuy, if_true] at hx
  rcases hf : s₁.2.finalSize with - | n
  · simp [hf] at hx
  · rw [hf] at hx
    obtain ⟨hn, rfl⟩ := Prog.raiseIf_ok_iff.mp hx
    refine ⟨n, ?_, by omega⟩
    have hf' : s₃.2.finalSize = some n := hkeep
    simp [decisionOf, isBuy_of hb hcall', hsize, hf']

/-- What the walk may spend at most, on a ledger's state. -/
def spendCap (cfg : DeskConfig) (state : LedgerState) (mint : Mint) : ℤ :=
  min (truncInt (cfg.budget.maxTradeFraction * equityForHalts cfg state))
    (truncInt (cfg.budget.maxTokenFraction * equityForHalts cfg state) -
      ((state.positions.get mint).map (·.costBasisLamports)).getD 0)

/-- A passed buy is within the size asked for and both caps. -/
lemma passed_sizing {n : ℤ} (hn : dec.sizeLamports = some n) :
    (∃ m, call.order.sizeLamports = some m ∧ n ≤ m) ∧
      n ≤ spendCap cfg (d.fold cfg) call.order.mint := by
  obtain ⟨s₁, s₂, s₃, c', hx, -, hcall, hstate, hafter, rfl, hcall', hsize, hfirst⟩ :=
    passed_step h hp .maxTradeFraction fun c hc => by
      rw [isExitSell_buy hb hc]
      exact skipStep_buy (.inr rfl)
  obtain ⟨hfold, hequity⟩ := hstate (by decide)
  have hbuy : s₁.2.isBuy = true := isBuy_of hb hcall
  obtain ⟨m, hm, htrade, ⟨asked, hasked, hle₀⟩, hs⟩ := tradeStep_run hbuy hx
  rw [hfirst (by decide) (by decide), if_pos hb] at hasked
  have hcall₂ : s₂.2.call = call := by rw [hs]; exact hcall
  have htoken :
      walkSteps cfg (.maxTokenFraction :: stepsAfter .maxTokenFraction) s₂ = (.ok (), s₃) :=
    hafter
  obtain ⟨s₄, hx₄, hrest⟩ := walkSteps_cons htoken
  have hskip : skipStep .maxTokenFraction s₂.2.call.stage s₂.2.isExitSell = false := by
    rw [isExitSell_buy hb hcall₂]
    exact skipStep_buy (.inr rfl)
  rw [if_neg (by rw [hskip]; simp)] at hx₄
  obtain ⟨m', hm', hle, htoken⟩ := tokenStep_run (isBuy_of hb hcall₂) hm hx₄
  have hkeep := (walkSteps_finalSize cfg (by decide) (by decide)).run hrest
  have hm₃ : s₃.2.finalSize = some m' := hkeep.trans hm'
  obtain rfl : n = m' := by
    simp only [decisionOf, isBuy_of hb hcall', if_true, hsize, hm₃] at hn
    exact (Option.some.inj hn).symm
  rw [hs] at htoken
  rw [hequity] at htrade
  simp only [StepCtx.order, hequity, hfold, hcall] at htoken
  exact ⟨⟨asked, hasked, hle.trans hle₀⟩, le_min (hle.trans htrade) htoken⟩

lemma passed_caps {n : ℤ} (hn : dec.sizeLamports = some n) :
    n ≤ spendCap cfg (d.fold cfg) call.order.mint := (passed_sizing h hp hb hn).2

/-- A passed buy found fewer open positions than the limit. -/
lemma passed_maxOpen : openCount (d.fold cfg) < cfg.budget.maxOpenPositions := by
  obtain ⟨s₁, s₂, s₃, c', hx, -, hcall, hstate, -⟩ :=
    passed_step h hp .maxOpenPositions fun c hc => by
      rw [isExitSell_buy hb hc]
      exact skipStep_buy (.inr rfl)
  have hbuy : s₁.2.isBuy = true := isBuy_of hb hcall
  have := failIf_step hx
  simp only [isBuy_evaluated, hbuy, true_and, not_le] at this
  rwa [(hstate (by decide)).1] at this

/-- A passed buy found its mint not held. -/
lemma passed_alreadyOpen :
    ((d.fold cfg).positions.get call.order.mint).any (0 < ·.tokenUnits) = false := by
  obtain ⟨s₁, s₂, s₃, c', hx, -, hcall, hstate, -⟩ :=
    passed_step h hp .alreadyOpen fun c hc => by
      rw [isExitSell_buy hb hc]
      exact skipStep_buy (.inr rfl)
  have hbuy : s₁.2.isBuy = true := isBuy_of hb hcall
  have := failIf_step hx
  simp only [isBuy_evaluated, hbuy, true_and, Bool.not_eq_true] at this
  rw [(hstate (by decide)).1] at this
  simpa [StepCtx.order, hcall] using this

/-- A passed buy of a given creator found no position of that creator. -/
lemma passed_creator (hlim : cfg.limits.onePositionPerCreator = true) (hcr : call.creator ≠ []) :
    creatorOpen (d.fold cfg) call.creator = false := by
  obtain ⟨s₁, s₂, s₃, c', hx, -, hcall, hstate, -⟩ :=
    passed_step h hp .creatorAlreadyOpen fun c hc => by
      rw [isExitSell_buy hb hc]
      exact skipStep_buy (.inr rfl)
  have hbuy : s₁.2.isBuy = true := isBuy_of hb hcall
  simp only [runStep, stepCreatorAlreadyOpen, Walk.mark, Walk.update] at hx
  rw [Prog.bind_run_ok (Prog.modify_run _ _), Prog.bind_run_ok (ctx_run _)] at hx
  obtain ⟨creator, s₄, hlook, hfail⟩ := Prog.bind_ok_iff.mp hx
  obtain ⟨rfl, rfl⟩ : mintCreator s₁.1 { s₁.2 with evaluated := _ } = creator ∧ _ = s₄ :=
    (Prod.mk.inj hlook).imp_left Except.ok.inj
  have hm : mintCreator s₁.1 { s₁.2 with
      evaluated := s₁.2.evaluated ++ [StepId.creatorAlreadyOpen] } = call.creator := by
    simp [mintCreator, hcall, hcr]
  have := (Prog.raiseIf_ok_iff.mp hfail).1
  rw [hm] at this
  simp only [isBuy_evaluated, hbuy, hlim, ne_eq, hcr,
    not_false_eq_true, true_and, Bool.not_eq_true] at this
  rwa [(hstate (by decide)).1] at this

end Passed

end PumpGrok
