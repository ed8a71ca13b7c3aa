import PumpGrok.Desk.System
import PumpGrok.Execution.Stretches

/-!
The preview of an order, and `place` with the curve unmoved and nothing else happening. A preview
runs the sizing and the pricing of `place` and none of its gates: where the gates let a buy pass at
its size, `place` fills it as the preview says.
-/

namespace PumpGrok

open World

/-! ### The preview -/

inductive FillKind where
  | full
  | partially
  | rejected
  deriving DecidableEq

structure SimulationResult where
  wouldFill : Bool
  fillKind : FillKind
  priceExpected : ℚ
  expectedOut : ℤ
  priceImpactPct : ℚ
  venueFeeLamports : ℤ
  networkCostLamports : ℤ
  liquidityRatio : ℚ
  rejectionReason : Option Reason
  latencyMsEstimate : ℤ := 1200
  deriving DecidableEq

/-- The units of a sell, as given, else its notional at the curve. -/
def sellPreviewUnits (sizeLamports tokenUnits : Option ℤ) (curve : CurveSnapshot) : ℤ :=
  match tokenUnits with
  | some units => units
  | none =>
    let size := sizeLamports.getD 0
    if size ≤ 0 ∨ curve.sLamports ≤ 0 then 0 else size * curve.tUnits / curve.sLamports

lemma sellUnits_eq (r : OrderRequest) (curve : CurveSnapshot) :
    sellUnits r curve = sellPreviewUnits r.sizeLamports r.tokenUnits curve := rfl

/-- A preview that would not fill; the ratio is zero without a size. -/
def simReject (cfg : DeskConfig) (reason : Reason) (reserve size : ℤ) : SimulationResult where
  wouldFill := false
  fillKind := .rejected
  priceExpected := 0
  expectedOut := 0
  priceImpactPct := 0
  venueFeeLamports := 0
  networkCostLamports := cfg.fees.networkCost
  liquidityRatio := if size = 0 then 0 else reserve / size
  rejectionReason := some reason

/-- `simulate` on the curve it reads: no risk check, no latency, no ledger writes. -/
def simulate (cfg : DeskConfig) (side : Side) (sizeLamports tokenUnits : Option ℤ)
    (curve : Option CurveSnapshot) : Except Exc SimulationResult :=
  match curve with
  | none => .ok (simReject cfg .noReserves 0 0)
  | some curve =>
    match side with
    | .buy =>
      let size := sizeLamports.getD 0
      if curve.sLamports < liquidityFloor cfg size then
        .ok (simReject cfg (.step .belowLiquidityFloor) curve.sLamports size)
      else do
        let filled := min size (fillCap cfg curve.sLamports)
        let out ← buyOut curve.sLamports curve.tUnits (filled - cfg.fees.venueFee filled)
        let price ← spot curve.sLamports curve.tUnits
        let impact ← impactBuy curve.sLamports filled
        let ratio ← decimalDiv curve.sLamports size
        pure
          { wouldFill := true
            fillKind := if filled = size then .full else .partially
            priceExpected := price
            expectedOut := out
            priceImpactPct := impact
            venueFeeLamports := cfg.fees.venueFee filled
            networkCostLamports := cfg.fees.networkCost
            liquidityRatio := ratio
            rejectionReason := none }
    | .sell =>
      let units := sellPreviewUnits sizeLamports tokenUnits curve
      if units ≤ 0 then
        .ok (simReject cfg (.step .belowLiquidityFloor) curve.tUnits units)
      else if curve.tUnits < liquidityFloor cfg units then
        .ok (simReject cfg (.step .belowLiquidityFloor) curve.tUnits units)
      else do
        let filledUnits := min units (fillCap cfg curve.tUnits)
        let gross ← sellOut curve.sLamports curve.tUnits filledUnits
        let price ← spot curve.sLamports curve.tUnits
        let impact ← impactSell curve.tUnits filledUnits
        let ratio ← decimalDiv curve.tUnits units
        pure
          { wouldFill := true
            fillKind := if filledUnits = units then .full else .partially
            priceExpected := price
            expectedOut := gross - cfg.fees.venueFee gross
            priceImpactPct := impact
            venueFeeLamports := cfg.fees.venueFee gross
            networkCostLamports := cfg.fees.networkCost
            liquidityRatio := ratio
            rejectionReason := none }

/-! ### The order -/

deriving instance DecidableEq for Placed, Quoted, Wait, Next

/-- Resume a call where the curve has not moved: no drop, no overrun. -/
def resumeUnmoved (cfg : DeskConfig) (owner : ℕ) (c : PlaceCall) (curve : Option CurveSnapshot)
    (latency : ℤ) : Next → Prog World Exc Next
  | .done fill => pure (.done fill)
  | .wait (.curve0 size) => placeCurve0 cfg owner c size curve latency false
  | .wait (.sleep p quoted) => placeWake cfg c p quoted false
  | .wait (.curve1 p quoted) => placeCurve1 cfg c p quoted curve

/-- `place` where the curve does not move and nothing runs between its awaits. -/
def placeUnmoved (cfg : DeskConfig) (owner : ℕ) (c : PlaceCall) (curve : Option CurveSnapshot)
    (latency : ℤ) : Prog World Exc Next := do
  let asked ← placeStart cfg c
  let placed ← resumeUnmoved cfg owner c curve latency asked
  let woken ← resumeUnmoved cfg owner c curve latency placed
  resumeUnmoved cfg owner c curve latency woken

/-- The world as a written order goes to sleep. -/
def World.asleep (owner order : ℕ) (w : World) : World :=
  { w with mem := sleepMemory owner order w.mem }

/-- The order meets nothing that stops or shrinks it: the risk check passes it at its size, the
curve is of an allowed source and incomplete, the order's batch is written, no cancel is on record,
the second check leaves room for the fill, and the store takes it. -/
structure Cleared (cfg : DeskConfig) (owner : ℕ) (c : PlaceCall) (curve : CurveSnapshot)
    (n filled : ℤ) (w w₁ w₂ w₃ : World) (recheck : RiskDecision) : Prop where
  asked : placeStart cfg c w = (.ok (.wait (.curve0 n)), w₁)
  allowed : rpcCurvePriceAllowed curve.source = true
  incomplete : curve.complete = false
  written : submit cfg c w₁.desk.nextId (w₁.withDesk (drawnDesk w₁.desk)) = (.ok none, w₂)
  kept : w₁.desk.nextId ∉ w₂.mem.cancelled
  rechecked : confirmRecheck cfg c w₁.desk.nextId false (w₂.asleep owner w₁.desk.nextId) =
    (.ok recheck, w₃)
  room : ∀ m ∈ recheck.sizeLamports, filled ≤ m
  consistent : w₃.desk.store.inconsistent = false
  free : w₃.desk.store.byKey (.fill w₁.desk.nextId) = none ∧
    w₃.desk.store.byKey (.position w₁.desk.nextId) = none

/-- The size a buy executes at a curve. -/
def fillAt (cfg : DeskConfig) (n : ℤ) (curve : CurveSnapshot) : ℤ :=
  min n (fillCap cfg curve.sLamports)

/-- A fill as a preview says. -/
structure Predicted (cfg : DeskConfig) (n : ℤ) (curve : CurveSnapshot) (r : SimulationResult)
    (fill : Fill) : Prop where
  size : fill.filledLamports = fillAt cfg n curve
  kind : fill.status = .filled ↔ r.fillKind = .full
  units : fill.filledUnits = r.expectedOut
  venueFee : fill.venueFeeLamports = r.venueFeeLamports
  network : fill.networkCostLamports = r.networkCostLamports

/-- A feasible preview of a buy: above the floor, and priced. -/
structure Feasible (cfg : DeskConfig) (n : ℤ) (curve : CurveSnapshot) (r : SimulationResult) :
    Prop where
  floor : liquidityFloor cfg n ≤ curve.sLamports
  size_ne : n ≠ 0
  out : buyOut curve.sLamports curve.tUnits
    (fillAt cfg n curve - cfg.fees.venueFee (fillAt cfg n curve)) = .ok r.expectedOut
  kind : r.fillKind = if fillAt cfg n curve = n then .full else .partially
  venueFee : r.venueFeeLamports = cfg.fees.venueFee (fillAt cfg n curve)
  network : r.networkCostLamports = cfg.fees.networkCost

section Forward

variable {cfg : DeskConfig} {c : PlaceCall} {curve : CurveSnapshot} {n : ℤ} {units : Option ℤ}
  {r : SimulationResult}

lemma feasible_of_simulate (h : simulate cfg .buy (some n) units (some curve) = .ok r)
    (hw : r.wouldFill = true) : Feasible cfg n curve r := by
  unfold simulate at h
  simp only [Option.getD_some] at h
  by_cases hfloor : curve.sLamports < liquidityFloor cfg n
  · rw [if_pos hfloor] at h
    obtain rfl := Except.ok.inj h
    simp [simReject] at hw
  · rw [if_neg hfloor] at h
    obtain ⟨out, hout, h⟩ := except_bind_ok_iff.mp h
    obtain ⟨price, -, h⟩ := except_bind_ok_iff.mp h
    obtain ⟨impact, -, h⟩ := except_bind_ok_iff.mp h
    obtain ⟨ratio, hratio, h⟩ := except_bind_ok_iff.mp h
    obtain rfl := Except.ok.inj h
    exact ⟨not_lt.mp hfloor, (decimalDiv_ok_iff.mp hratio).1, hout, rfl, rfl, rfl⟩

/-- The quote of a buy priced at its size. -/
def buyQuoteAt (cfg : DeskConfig) (c : PlaceCall) (n filled out0 : ℤ) : BuyQuote where
  size := n
  filled := filled
  fraction := filled / n
  venueFee := cfg.fees.venueFee filled
  xNet := filled - cfg.fees.venueFee filled
  slippageBps := slippageBps cfg c.request
  out0 := out0
  threshold := out0 * (10000 - slippageBps cfg c.request) / 10000

lemma slippageBps_nonneg (cfg : DeskConfig) (req : OrderRequest) : 0 ≤ slippageBps cfg req :=
  le_min (by linarith [req.slippage_ge]) cfg.limits.slippage_ge

/-- At an unmoved price the threshold is met. -/
lemma threshold_le (n filled : ℤ) {out0 : ℤ} (h : 0 ≤ out0) :
    (buyQuoteAt cfg c n filled out0).threshold ≤ out0 := by
  have hbps := slippageBps_nonneg cfg c.request
  show out0 * (10000 - slippageBps cfg c.request) / 10000 ≤ out0
  refine Int.ediv_le_of_le_mul (by norm_num) ?_
  nlinarith

/-- `place` sizes a buy as its preview does. -/
lemma buySizing_ok (h : Feasible cfg n curve r) (w : World) :
    buySizing cfg c n curve w =
      (.ok (buyQuoteAt cfg c n (fillAt cfg n curve) r.expectedOut), w) := by
  have hout := h.out
  unfold fillAt at hout
  unfold buySizing
  rw [if_neg (not_lt.mpr h.floor)]
  simp only [hout, decimalDiv, if_neg h.size_ne]
  rfl

/-- Its fill is settled where the store takes the rows. -/
lemma buySettle_ok (p : Placed) (q : BuyQuote) {out1 : ℤ} (hne : out1 ≠ 0) {w : World}
    (hc : w.desk.store.inconsistent = false)
    (hf : w.desk.store.byKey (.fill p.orderId) = none ∧
      w.desk.store.byKey (.position p.orderId) = none) :
    ∃ fill w', buySettle cfg c p q curve out1 w = (.ok fill, w') ∧
      fill.filledLamports = q.filled ∧ fill.filledUnits = out1 ∧
      (fill.status = .filled ↔ q.filled = q.size) ∧ fill.venueFeeLamports = q.venueFee ∧
      fill.networkCostLamports = cfg.fees.networkCost := by
  have hdiv : decimalDiv q.xNet out1 = .ok (q.xNet / out1) := by simp [decimalDiv, hne]
  have hs : buySettle cfg c p q curve out1 w = (do
      let stored ← onStore (LedgerStore.appendBatch (boughtRows cfg c p q curve out1 w.desk))
      settleMemory p.orderId c.request.mint curve
      pure (buyFill cfg c (buyFigures p q curve out1 w.desk.nextId) stored) : Prog World Exc Fill)
        (w.withDesk (refDesk w.desk)) := by
    unfold buySettle
    rw [hdiv]
    rfl
  have hfresh : w.desk.store.Fresh (boughtRows cfg c p q curve out1 w.desk) := by
    unfold boughtRows buyFillRows
    split_ifs
    · exact LedgerStore.fresh_singleton.mpr hf.1
    · refine ⟨by simp [buyFillRow, buyPositionRow], fun r hr => ?_⟩
      fin_cases hr
      · exact hf.1
      · exact hf.2
  rcases appendFill_run (w := w) (boughtRows cfg c p q curve out1 w.desk)
    (boughtRows_ne_nil p q curve out1 w.desk) w.desk with ⟨-, -, es, ha⟩ | ⟨hn, -⟩
  · rw [Prog.bind_run_ok ha, Prog.bind_run_ok (settleMemory_run _ _ _ _)] at hs
    refine ⟨_, _, hs, rfl, rfl, ?_, rfl, rfl⟩
    show (if q.filled = q.size then FillStatus.filled else .partially) = .filled ↔ _
    split_ifs with h <;> simp [h]
  · exact absurd ⟨hc, hfresh⟩ hn

/-- To the latency sleep. -/
lemma placeCurve0_ok {owner : ℕ} {latency : ℤ} {w₁ w₂ : World} (hb : c.request.side = .buy)
    (hf : Feasible cfg n curve r) (ha : rpcCurvePriceAllowed curve.source = true)
    (hi : curve.complete = false)
    (hs : submit cfg c w₁.desk.nextId (w₁.withDesk (drawnDesk w₁.desk)) = (.ok none, w₂)) :
    placeCurve0 cfg owner c n (some curve) latency false w₁ =
      (.ok (.wait (.sleep
        { orderId := w₁.desk.nextId, curve0 := curve, latency := latency, dropped := false }
        (.buy (buyQuoteAt cfg c n (fillAt cfg n curve) r.expectedOut)))),
        w₂.asleep owner w₁.desk.nextId) := by
  have hcurve : orderCurve cfg c (some curve) w₁ = (.ok curve, w₁) := by
    unfold orderCurve
    simp only [ha, hi, Bool.true_eq_false, and_false, if_false, Bool.false_eq_true]
    rfl
  have hquote : quoteOrder cfg c n curve w₁ =
      (.ok (.buy (buyQuoteAt cfg c n (fillAt cfg n curve) r.expectedOut)), w₁) := by
    unfold quoteOrder
    rw [hb]
    exact Prog.bind_run_ok (buySizing_ok hf w₁)
  have hid : World.ulid (w₁.withDesk { w₁.desk with nextId := w₁.desk.nextId + 1 }) =
      (.ok (w₁.desk.nextId + 1), w₁.withDesk (drawnDesk w₁.desk)) := rfl
  unfold placeCurve0
  rw [Prog.bind_run_ok hcurve, Prog.bind_run_ok hquote, Prog.bind_run_ok (ulid_run w₁),
    Prog.bind_run_ok hid, Prog.bind_run_ok hs]
  rfl

/-- From the second reading to the fill. -/
lemma placeCurve1_ok {p : Placed} {w w₃ : World} {recheck : RiskDecision}
    (hkept : p.dropped = false) (hf : Feasible cfg n curve r)
    (hne : r.expectedOut ≠ 0) (ha : rpcCurvePriceAllowed curve.source = true)
    (hi : curve.complete = false)
    (hr : confirmRecheck cfg c p.orderId false w = (.ok recheck, w₃))
    (hroom : ∀ m ∈ recheck.sizeLamports, fillAt cfg n curve ≤ m)
    (hc : w₃.desk.store.inconsistent = false)
    (hfree : w₃.desk.store.byKey (.fill p.orderId) = none ∧
      w₃.desk.store.byKey (.position p.orderId) = none) :
    ∃ fill, (placeCurve1 cfg c p
        (.buy (buyQuoteAt cfg c n (fillAt cfg n curve) r.expectedOut)) (some curve) w).1 =
      .ok (.done fill) ∧ Predicted cfg n curve r fill := by
  set q := buyQuoteAt cfg c n (fillAt cfg n curve) r.expectedOut with hq
  have htaken : confirmCurve cfg c p.orderId (some curve) w = (.ok curve, w) := by
    unfold confirmCurve
    simp only [ha, hi, Bool.true_eq_false, and_false, if_false, Bool.false_eq_true]
    rfl
  have hrecap : buyRecap cfg q p.curve0 recheck.sizeLamports = .ok q := by
    unfold buyRecap
    rcases hm : recheck.sizeLamports with - | m
    · rfl
    · exact if_pos (hroom m hm)
  have hguard : buyGuardSlippage cfg c p.orderId q r.expectedOut w₃ = (.ok (), w₃) := by
    unfold buyGuardSlippage
    rw [if_pos (threshold_le n _ (buyOut_nonneg hf.out))]
    rfl
  have hout : buyOut curve.sLamports curve.tUnits q.xNet = .ok r.expectedOut := hf.out
  obtain ⟨fill, w', hfill, hsize, hunits, hstatus, hfee, hnet⟩ :=
    @buySettle_ok cfg c curve p q r.expectedOut hne w₃ hc hfree
  refine ⟨fill, ?_, hsize, ?_, hunits, hfee.trans hf.venueFee.symm, hnet.trans hf.network.symm⟩
  · unfold placeCurve1 buyConfirm
    simp only [Prog.bind_assoc]
    rw [Prog.bind_run_ok htaken, hkept, Prog.bind_run_ok hr,
      Prog.bind_run_ok (ofExcept_ok_iff.mpr ⟨hrecap, rfl⟩),
      Prog.bind_run_ok (ofExcept_ok_iff.mpr ⟨hout, rfl⟩), Prog.bind_run_ok hguard,
      Prog.bind_run_ok hfill]
    rfl
  · rw [hstatus, hf.kind]
    show fillAt cfg n curve = n ↔ _
    split_ifs with h <;> simp [h]

end Forward

/-- A preview of a buy raises only where sizing it does, at the same curve. -/
lemma simulate_buy_error {cfg : DeskConfig} {c : PlaceCall} {n : ℤ} {units : Option ℤ}
    {curve : CurveSnapshot} {x : Exc} (hn : n ≠ 0)
    (h : simulate cfg .buy (some n) units (some curve) = .error x) (w : World) :
    buySizing cfg c n curve w = (.error x, w) := by
  unfold simulate at h
  unfold buySizing
  simp only [Option.getD_some] at h
  by_cases hfloor : curve.sLamports < liquidityFloor cfg n
  · simp [if_pos hfloor] at h
  · rw [if_neg hfloor] at h ⊢
    simp only [decimalDiv, if_neg hn] at h ⊢
    rcases hout : buyOut curve.sLamports curve.tUnits (min n (fillCap cfg curve.sLamports) -
      cfg.fees.venueFee (min n (fillCap cfg curve.sLamports))) with y | out
    · rw [hout] at h
      obtain rfl := Except.error.inj h
      rfl
    · -- a priced buy has positive reserves, so the ratios are defined
      obtain ⟨hs, ht, -⟩ := buyOut_ok_iff.mp hout
      rw [hout] at h
      simp only [spot, impactBuy, if_neg (not_le.mpr hs), if_neg (not_le.mpr ht)] at h
      cases h

lemma sellOut_error_iff {s t x : ℤ} {e : Exc} :
    sellOut s t x = .error e ↔ e = .valueError ∧ (s ≤ 0 ∨ t ≤ 0 ∨ x ≤ 0) := by
  unfold sellOut
  split_ifs with h h'
  · simp only [Except.error.injEq]
    exact ⟨fun he => ⟨he.symm, h.elim .inl fun h => .inr (.inl h)⟩, fun he => he.1.symm⟩
  · simp only [Except.error.injEq]
    exact ⟨fun he => ⟨he.symm, .inr (.inr h')⟩, fun he => he.1.symm⟩
  · simp only [false_iff, not_and]
    omega

/-- A preview of a sell raises only where planning it does, whatever is held. -/
lemma simulate_sell_error {cfg : DeskConfig} {req : OrderRequest} {curve : CurveSnapshot} {x : Exc}
    (h : simulate cfg .sell req.sizeLamports req.tokenUnits (some curve) = .error x) {held : ℤ}
    (hh : 0 < held) :
    planSell cfg req curve (sellUnits req curve)
      (min (min (sellUnits req curve) (fillCap cfg curve.tUnits)) held) = .error x := by
  unfold simulate at h
  rw [sellUnits_eq]
  dsimp only at h
  generalize sellPreviewUnits req.sizeLamports req.tokenUnits curve = u at h ⊢
  by_cases hu : u ≤ 0
  · simp [if_pos hu] at h
  rw [if_neg hu] at h
  by_cases hfloor : curve.tUnits < liquidityFloor cfg u
  · simp [if_pos hfloor] at h
  rw [if_neg hfloor] at h
  have hne : u ≠ 0 := by omega
  rcases hout : sellOut curve.sLamports curve.tUnits (min u (fillCap cfg curve.tUnits)) with y | out
  · rw [hout] at h
    obtain rfl := Except.error.inj h
    obtain ⟨hy, hbad⟩ := sellOut_error_iff.mp hout
    have hheld : sellOut curve.sLamports curve.tUnits
        (min (min u (fillCap cfg curve.tUnits)) held) = .error y :=
      sellOut_error_iff.mpr ⟨hy, by omega⟩
    unfold planSell
    simp only [decimalDiv, if_neg hne, hheld]
    rfl
  · -- a priced sell has positive reserves, so the ratios are defined
    obtain ⟨-, ht, -⟩ := sellOut_ok_iff.mp hout
    rw [hout] at h
    simp only [spot, impactSell, decimalDiv, if_neg (not_le.mpr ht), if_neg hne] at h
    cases h

/-- **A preview predicts `place`** of an order that the risk check passes at its size, on a curve
that passes the gates on source and completion. Unmoved and with nothing else happening, a buy it
reports as feasible is filled with the size, units and cost it reports; and it raises only where
`place` raises in sizing, or planning, the same order. -/
theorem simulate_predicts (cfg : DeskConfig) (owner : ℕ) (c : PlaceCall) (curve : CurveSnapshot)
    (latency : ℤ) (w : World) :
    (∀ n r, c.request.side = .buy → c.request.sizeLamports = some n →
      simulate cfg .buy (some n) c.request.tokenUnits (some curve) = .ok r →
      r.wouldFill = true → r.expectedOut ≠ 0 →
      ∀ w₁ w₂ w₃ recheck,
        Cleared cfg owner c curve n (fillAt cfg n curve) w w₁ w₂ w₃ recheck →
        ∃ fill, (placeUnmoved cfg owner c (some curve) latency w).1 = .ok (.done fill) ∧
          Predicted cfg n curve r fill) ∧
    (∀ n x, c.request.side = .buy → c.request.sizeLamports = some n →
      simulate cfg .buy (some n) c.request.tokenUnits (some curve) = .error x →
      buySizing cfg c n curve w = (.error x, w)) ∧
    (∀ x held, c.request.side = .sell → 0 < held →
      simulate cfg .sell c.request.sizeLamports c.request.tokenUnits (some curve) = .error x →
      planSell cfg c.request curve (sellUnits c.request curve)
        (min (min (sellUnits c.request curve) (fillCap cfg curve.tUnits)) held) = .error x) := by
  refine ⟨fun n r hb _ hsim hw hne w₁ w₂ w₃ recheck h => ?_, fun n x _ hn hsim => ?_,
    fun x held _ hh hsim => simulate_sell_error hsim hh⟩
  · have hf := feasible_of_simulate hsim hw
    set p : Placed :=
      { orderId := w₁.desk.nextId, curve0 := curve, latency := latency, dropped := false } with hp
    set q := buyQuoteAt cfg c n (fillAt cfg n curve) r.expectedOut with hq
    have h₁ : resumeUnmoved cfg owner c (some curve) latency (.wait (.curve0 n)) w₁ =
        (.ok (.wait (.sleep p (.buy q))), w₂.asleep owner p.orderId) :=
      placeCurve0_ok hb hf h.allowed h.incomplete h.written
    have h₂ : resumeUnmoved cfg owner c (some curve) latency (.wait (.sleep p (.buy q)))
        (w₂.asleep owner p.orderId) =
          (.ok (.wait (.curve1 p (.buy q))), w₂.asleep owner p.orderId) := by
      have hcheck : confirmCancelCheck cfg c p.orderId (w₂.asleep owner p.orderId) =
          (.ok (), w₂.asleep owner p.orderId) := by
        unfold confirmCancelCheck
        exact if_neg h.kept
      show placeWake cfg c p (.buy q) false _ = _
      unfold placeWake
      rw [if_neg (by simp), Prog.bind_run_ok hcheck]
      rfl
    obtain ⟨fill, hfill, hpred⟩ := placeCurve1_ok (p := p) rfl hf hne h.allowed h.incomplete
      h.rechecked h.room h.consistent h.free
    refine ⟨fill, ?_, hpred⟩
    unfold placeUnmoved
    rw [Prog.bind_run_ok h.asked, Prog.bind_run_ok h₁, Prog.bind_run_ok h₂]
    exact hfill
  · exact simulate_buy_error (by have := c.request.size_pos n hn; omega) hsim w

namespace Sys

/-- The sample desk before its first order, and as the order is asked for, written and checked
again. -/
def sampleWorld : World := (sampleAfter [sampleReserves]).world

def sampleAsked : World := (placeStart sampleConfig (sampleBuy 'a' 1) sampleWorld).2

def sampleWritten : World :=
  (submit sampleConfig (sampleBuy 'a' 1) sampleAsked.desk.nextId
    (sampleAsked.withDesk (drawnDesk sampleAsked.desk))).2

def sampleRechecked : Except Exc RiskDecision × World :=
  confirmRecheck sampleConfig (sampleBuy 'a' 1) sampleAsked.desk.nextId false
    (sampleWritten.asleep 0 sampleAsked.desk.nextId)

lemma fst_eq {α β : Type} {x : α × β} {a : α} (h : x.1 = a) : x = (a, x.2) := by
  rw [← h]

lemma sample_cleared : ∃ recheck, Cleared sampleConfig 0 (sampleBuy 'a' 1) sampleCurve 100000000
    (PumpGrok.fillAt sampleConfig 100000000 sampleCurve) sampleWorld sampleAsked sampleWritten
      sampleRechecked.2 recheck := by
  have hok : (sampleRechecked.1.toOption.bind (·.sizeLamports)) = some 100000000 := by
    decide +kernel
  rcases hr : sampleRechecked.1 with x | recheck
  · simp [hr, Except.toOption] at hok
  · have hsize : recheck.sizeLamports = some 100000000 := by simpa [hr, Except.toOption] using hok
    have hasked : (placeStart sampleConfig (sampleBuy 'a' 1) sampleWorld).1 =
        .ok (.wait (.curve0 100000000)) := by decide +kernel
    have hwritten : (submit sampleConfig (sampleBuy 'a' 1) sampleAsked.desk.nextId
        (sampleAsked.withDesk (drawnDesk sampleAsked.desk))).1 = .ok none := by decide +kernel
    exact ⟨recheck, {
      asked := fst_eq hasked
      allowed := by decide
      incomplete := by decide
      written := fst_eq hwritten
      kept := by decide +kernel
      rechecked := fst_eq hr
      room := by
        rw [hsize]
        decide +kernel
      consistent := by decide +kernel
      free := by decide +kernel }⟩

/-- The sample preview, of a size. -/
def samplePreview (n : ℤ) : Except Exc SimulationResult :=
  simulate sampleConfig .buy (some n) none (some sampleCurve)

end Sys

open Sys in
theorem simulate_predicts_sample :
    ∃ fill, (placeUnmoved sampleConfig 0 (sampleBuy 'a' 1) (some sampleCurve) 0 sampleWorld).1 =
      .ok (.done fill) ∧ fill.filledUnits = 3529253463570 := by
  have hout : (samplePreview 100000000).toOption.map (fun r => (r.wouldFill, r.expectedOut)) =
      some (true, 3529253463570) := by decide +kernel
  rcases hr : samplePreview 100000000 with x | r
  · simp [hr, Except.toOption] at hout
  · obtain ⟨hw, hunits⟩ : r.wouldFill = true ∧ r.expectedOut = 3529253463570 := by
      simpa [hr, Except.toOption] using hout
    obtain ⟨recheck, hcleared⟩ := sample_cleared
    obtain ⟨fill, hfill, hpred⟩ := (simulate_predicts sampleConfig 0 (sampleBuy 'a' 1) sampleCurve 0
      sampleWorld).1 100000000 r rfl rfl hr hw (by omega) _ _ _ _ hcleared
    exact ⟨fill, hfill, hpred.units.trans hunits⟩

/-- What an unmoved `place` of the sample desk filled, in lamports and units. -/
def sampleFilled (n : ℤ) (h : 0 < n) (curve : CurveSnapshot) : Option (ℤ × ℤ) :=
  match
      (placeUnmoved Sys.sampleConfig 0 (Sys.sampleSized n h) (some curve) 0 Sys.sampleWorld).1 with
  | .ok (.done fill) => some (fill.filledLamports, fill.filledUnits)
  | _ => none

open Sys in
/-- The risk check caps what the preview reports in full; and of a size whose fill is nothing the
preview raises, where `place` refuses the size as too small. -/
theorem capped_buy_filled_smaller :
    ((samplePreview 300000000).toOption.map fun r => (r.fillKind, r.expectedOut)) =
        some (.full, 10518566194672) ∧
      sampleFilled 300000000 (by norm_num) sampleCurve = some (200000000, 7035366580568) ∧
      simulate sampleConfig .buy (some 4) none (some { sLamports := 40, tUnits := 1 }) =
        .error .valueError ∧
      (placeUnmoved sampleConfig 0 (sampleSized 4 (by norm_num))
        (some { sLamports := 40, tUnits := 1 }) 0 sampleWorld).1 =
          .error (.orderRejected
            { reason := .step .sizeTooSmall, detail := .riskRefused, stage := .accepted }) := by
  refine ⟨?_, ?_, ?_, ?_⟩ <;> decide +kernel

end PumpGrok
