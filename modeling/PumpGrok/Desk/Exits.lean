import PumpGrok.Desk.Books
import PumpGrok.Ledger.Units

/-!
Exits of whole positions. A rule sell is quoted against the token reserves twice over: the floor
refuses a holding above a fraction of them, and the cap cuts the fill to another. Where both let
the holding through, repeated sells on a curve that does not move end it.
-/

namespace PumpGrok

open World

variable (cfg : DeskConfig) (curve : CurveSnapshot) (mint : Mint)

/-- The open units of a mint on the ledger of the desk. -/
def World.units (w : World) : ℤ := openUnits (w.desk.fold cfg) mint

/-- A rule sell of all the open units of a mint. -/
structure WholeSell (w : World) (c : PlaceCall) : Prop where
  side : c.request.side = .sell
  rule : ∃ r, c.reason = some (.rule r)
  mint_eq : c.request.mint = mint
  whole : c.request.tokenUnits = some (w.units cfg mint)
  held : 0 < w.units cfg mint

/-- What an order risk accepted is quoted, at the first reading. -/
def quoteAt (c : PlaceCall) (size : ℤ) : Prog World Exc Quoted := do
  let seen ← orderCurve cfg c (some curve)
  quoteOrder cfg c size seen

/-- A sell quoted and then settled on one curve. In between the desk may do anything else; only
the units of the mint stay. -/
inductive Sale (w : World) (c : PlaceCall) (fill : Fill) (w' : World) : Prop
  | mk (size : ℤ) (plan : SellPlan) (p : Placed) (w₁ : World) (hc : WholeSell cfg mint w c)
      (hq : quoteAt cfg curve c size w = (.ok (.sell plan), w))
      (hu : w₁.units cfg mint = w.units cfg mint)
      (hs : placeCurve1 cfg c p (.sell plan) (some curve) w₁ = (.ok (.done fill), w'))

/-- Sells one after the other, and nothing else that moves the units of the mint. -/
inductive Sales : List Fill → World → World → Prop
  | none (w : World) : Sales [] w w
  | sale {c : PlaceCall} {fill : Fill} {fills : List Fill} {w w₁ w₂ w' : World}
      (h : Sale cfg curve mint w c fill w₁) (hu : w₂.units cfg mint = w₁.units cfg mint)
      (hs : Sales fills w₂ w') : Sales (fill :: fills) w w'

/-- The store takes the rows of an order's fill. -/
structure TakesFill (d : Desk) (order : ℕ) : Prop where
  consistent : d.store.inconsistent = false
  fill : d.store.byKey (.fill order) = none
  close : d.store.byKey (.close order) = none

/-- A sell is planned to fill from one unit to the holding, and settles once its second check
passes on the holding it was quoted for. -/
def Plans (w : World) (c : PlaceCall) (size : ℤ) : Prop :=
  ∃ plan, quoteAt cfg curve c size w = (.ok (.sell plan), w) ∧
    1 ≤ plan.filledUnits ∧ plan.filledUnits ≤ w.units cfg mint ∧
    ∀ p w₁ dec d, w₁.units cfg mint = w.units cfg mint → Confirmed cfg c p w₁ dec d →
      TakesFill d p.orderId →
      ∃ fill w', placeCurve1 cfg c p (.sell plan) (some curve) w₁ = (.ok (.done fill), w')

/-- What a fill reports is what was sold of the whole. -/
structure SaysSold (w : World) (fill : Fill) (w' : World) : Prop where
  units : w'.units cfg mint = w.units cfg mint - fill.filledUnits
  fraction : fill.filledFraction = fill.filledUnits / w.units cfg mint
  status : fill.status = .filled ↔ fill.filledUnits = w.units cfg mint
  closed : fill.status = .filled → (w'.desk.fold cfg).positions.get mint = none

/-- From a holding, every sell of the whole is planned and settles, the fills say what was sold,
and some number of them closes the position. -/
structure ExitProgress (w : World) : Prop where
  planned : ∀ fills w', Sales cfg curve mint fills w w' → ∀ c size, WholeSell cfg mint w' c →
    Plans cfg curve mint w' c size
  reported : ∀ fills w', Sales cfg curve mint fills w w' → ∀ c fill w'',
    Sale cfg curve mint w' c fill w'' → SaysSold cfg mint w' fill w''
  closes : ∃ n, ∀ fills w', Sales cfg curve mint fills w w' →
    fills.length ≤ n ∧ (fills.length = n → w'.units cfg mint = 0)

variable {cfg curve mint} {w w' : World} {c : PlaceCall}

/-! ### The quote -/

/-- The units a sell of the whole is planned to fill. -/
def plannedUnits (cfg : DeskConfig) (curve : CurveSnapshot) (held : ℤ) : ℤ :=
  min (min held (fillCap cfg curve.tUnits)) held

lemma plannedUnits_eq (held : ℤ) :
    plannedUnits cfg curve held = min held (fillCap cfg curve.tUnits) := by
  unfold plannedUnits
  omega

lemma orderCurve_open (h : WholeSell cfg mint w c) (hopen : curve.complete = false) :
    orderCurve cfg c (some curve) w = (.ok curve, w) := by
  unfold orderCurve
  simp only [h.side, hopen, reduceCtorEq, false_and, if_false, Bool.false_eq_true]
  rfl

lemma sellUnits_whole (h : WholeSell cfg mint w c) :
    sellUnits c.request curve = w.units cfg mint := by
  unfold sellUnits
  rw [h.whole]

lemma sellTargets_whole (curve : CurveSnapshot) (h : WholeSell cfg mint w c) :
    sellTargets cfg c curve w =
      if curve.tUnits < liquidityFloor cfg (w.units cfg mint) then
        refuse c.request (.step .belowLiquidityFloor)
          (.tokenFloor curve.tUnits (liquidityFloor cfg (w.units cfg mint))) .accepted {}
          (c.ledgerSource cfg) w
      else (.ok (w.units cfg mint, plannedUnits cfg curve (w.units cfg mint)), w) := by
  have hheld : openUnits (w.desk.fold cfg) c.request.mint = w.units cfg mint := by
    rw [h.mint_eq]
    rfl
  have hpos := h.held
  unfold sellTargets
  rw [Prog.bind_run_ok (fold_run cfg w), sellUnits_whole h]
  simp only [hheld, not_le.mpr hpos, if_false]
  split_ifs
  · rfl
  · rfl

/-- The plan of a sell of some of the units asked for. -/
def planOf (cfg : DeskConfig) (r : OrderRequest) (units filledUnits gross0 : ℤ) : SellPlan where
  units := units
  filledUnits := filledUnits
  fraction := filledUnits / units
  out0 := gross0 - cfg.fees.venueFee gross0
  threshold := (gross0 - cfg.fees.venueFee gross0) * (10000 - slippageBps cfg r) / 10000

lemma planSell_ok_iff {r : OrderRequest} {units filledUnits : ℤ} {plan : SellPlan} :
    planSell cfg r curve units filledUnits = .ok plan ↔ units ≠ 0 ∧ ∃ gross0,
      sellOut curve.sLamports curve.tUnits filledUnits = .ok gross0 ∧
        plan = planOf cfg r units filledUnits gross0 := by
  unfold planSell
  rw [except_bind_ok_iff]
  constructor
  · rintro ⟨fraction, hd, h⟩
    obtain ⟨gross0, hg, h⟩ := except_bind_ok_iff.mp h
    obtain ⟨hne, rfl⟩ := decimalDiv_ok_iff.mp hd
    exact ⟨hne, gross0, hg, (Except.ok.inj h).symm⟩
  · rintro ⟨hne, gross0, hg, rfl⟩
    exact ⟨_, decimalDiv_ok_iff.mpr ⟨hne, rfl⟩, except_bind_ok_iff.mpr ⟨gross0, hg, rfl⟩⟩

/-- **The quote of a sell of the whole**, above the floor. -/
lemma quoteAt_ok_iff (h : WholeSell cfg mint w c) (hopen : curve.complete = false)
    (hfloor : liquidityFloor cfg (w.units cfg mint) ≤ curve.tUnits) {size : ℤ} {plan : SellPlan}
    {w' : World} :
    quoteAt cfg curve c size w = (.ok (.sell plan), w') ↔ w' = w ∧ ∃ gross0,
      sellOut curve.sLamports curve.tUnits (plannedUnits cfg curve (w.units cfg mint)) =
        .ok gross0 ∧
      plan = planOf cfg c.request (w.units cfg mint)
        (plannedUnits cfg curve (w.units cfg mint)) gross0 := by
  have hpos := h.held
  have htargets : sellTargets cfg c curve w =
      (.ok (w.units cfg mint, plannedUnits cfg curve (w.units cfg mint)), w) := by
    rw [sellTargets_whole curve h, if_neg (not_lt.mpr hfloor)]
  unfold quoteAt quoteOrder
  rw [Prog.bind_run_ok (orderCurve_open h hopen), h.side]
  simp only
  rw [Prog.bind_run_ok htargets]
  simp only [Prog.bind_ok_iff, ofExcept_ok_iff, planSell_ok_iff]
  constructor
  · rintro ⟨plan', w₁, ⟨⟨-, gross0, hg, rfl⟩, rfl⟩, hpure⟩
    cases hpure
    exact ⟨rfl, gross0, hg, rfl⟩
  · rintro ⟨rfl, gross0, hg, rfl⟩
    exact ⟨_, _, ⟨⟨hpos.ne', gross0, hg, rfl⟩, rfl⟩, rfl⟩

/-- A refusal ends what follows it. -/
lemma refuse_bind {α β : Type} (r : OrderRequest) (reason : Reason) (detail : Detail)
    (stage : Stage) (fig : RejectFigures) (source : EventSource) (f : α → Prog World Exc β) :
    (refuse r reason detail stage fig source >>= f) = refuse r reason detail stage fig source := by
  unfold refuse
  rw [Prog.bind_assoc]
  rfl

lemma bind_run_congr {α β : Type} {m m' : Prog World Exc α} (h : m w = m' w)
    (f : α → Prog World Exc β) : (m >>= f) w = (m' >>= f) w := by
  rcases hm : m w with ⟨x | a, w'⟩
  · rw [Prog.bind_run_error hm, Prog.bind_run_error (h ▸ hm)]
  · rw [Prog.bind_run_ok hm, Prog.bind_run_ok (h ▸ hm)]

/-- Below the floor the sell is refused. -/
lemma quoteAt_below (h : WholeSell cfg mint w c) (hopen : curve.complete = false)
    (hfloor : curve.tUnits < liquidityFloor cfg (w.units cfg mint)) (size : ℤ) :
    quoteAt cfg curve c size w =
      refuse c.request (.step .belowLiquidityFloor)
        (.tokenFloor curve.tUnits (liquidityFloor cfg (w.units cfg mint))) .accepted {}
        (c.ledgerSource cfg) w := by
  have htargets := sellTargets_whole curve h
  rw [if_pos hfloor] at htargets
  unfold quoteAt quoteOrder
  rw [Prog.bind_run_ok (orderCurve_open h hopen), h.side]
  simp only
  rw [bind_run_congr htargets, refuse_bind]

/-! ### The fill -/

variable {p : Placed} {plan : SellPlan} {fill : Fill}

/-- What a settled sell hands back. -/
lemma placeCurve1_fill {curve1 : Option CurveSnapshot}
    (h : placeCurve1 cfg c p (.sell plan) curve1 w = (.ok (.done fill), w')) :
    fill.filledUnits = plan.filledUnits ∧ fill.filledFraction = plan.fraction ∧
      (fill.status = .filled ↔ plan.filledUnits = plan.units) := by
  obtain ⟨fill', w₁, hconfirm, hpure⟩ := Prog.bind_ok_iff.mp h
  cases hpure
  unfold sellConfirm at hconfirm
  obtain ⟨seen, w₁, -, hconfirm⟩ := Prog.bind_ok_iff.mp hconfirm
  obtain ⟨dec, w₂, -, hconfirm⟩ := Prog.bind_ok_iff.mp hconfirm
  obtain ⟨pos, w₃, -, hconfirm⟩ := Prog.bind_ok_iff.mp hconfirm
  obtain ⟨⟨gross1, out1⟩, w₄, -, hconfirm⟩ := Prog.bind_ok_iff.mp hconfirm
  obtain ⟨f, w₅, hfigures, hsettle⟩ := Prog.bind_ok_iff.mp hconfirm
  have hfraction : f.fraction = plan.fraction := by
    unfold sellFigures at hfigures
    obtain ⟨price, w₆, -, hfigures⟩ := Prog.bind_ok_iff.mp hfigures
    obtain ⟨ref, w₇, -, hfigures⟩ := Prog.bind_ok_iff.mp hfigures
    cases hfigures
    rfl
  unfold sellSettle at hsettle
  obtain ⟨ts, w₆, -, hsettle⟩ := Prog.bind_ok_iff.mp hsettle
  obtain ⟨stored, w₇, -, hsettle⟩ := Prog.bind_ok_iff.mp hsettle
  obtain ⟨u, w₈, -, hsettle⟩ := Prog.bind_ok_iff.mp hsettle
  cases hsettle
  refine ⟨rfl, hfraction, ?_⟩
  unfold sellFill
  by_cases hall : plan.filledUnits = plan.units
  · simp [hall]
  · simp [hall]

/-- The position of the mint once the rows of a sell are on the ledger. -/
lemma settled_position (w : World) (p : Placed) (curve : CurveSnapshot) {d : Desk}
    {v : PositionView} (gross1 : ℤ)
    (hv : heldPosition (d.fold cfg) c.request.mint = some v) (hu : 0 < plan.filledUnits) :
    (v.tokenUnits ≤ plan.filledUnits →
      ((settledWorld c p curve (soldRows cfg c p plan curve v gross1 d) w d).desk.fold
        cfg).positions.get c.request.mint = none) ∧
    (plan.filledUnits < v.tokenUnits →
      (settledWorld c p curve (soldRows cfg c p plan curve v gross1 d) w d).units cfg
        c.request.mint = v.tokenUnits - plan.filledUnits) := by
  obtain ⟨hget, hpos⟩ := heldPosition_some.mp hv
  have hfold : (settledWorld c p curve (soldRows cfg c p plan curve v gross1 d) w d).desk.fold
      cfg = replay (d.fold cfg) (LedgerStore.stamp (d.store.count + 1)
        (soldRows cfg c p plan curve v gross1 d)) := by
    unfold settledWorld Desk.fold
    rw [LedgerStore.read_commit, replay_append]
    rfl
  constructor
  · intro hall
    have hrows : soldRows cfg c p plan curve v gross1 d = [sellFillRow cfg c p plan curve
        (sellFiguresOf cfg plan gross1 d.nextId) d.now,
        positionClosedRow cfg c p v (sellFiguresOf cfg plan gross1 d.nextId) d.now] := by
      unfold soldRows sellRows
      simp only [hpos, hall, and_self, if_true]
    rw [hfold, hrows]
    simp only [LedgerStore.stamp, replay_cons, replay_nil, reduce_positions, sellFillRow,
      positionClosedRow, handle, onPositionClosed_positions]
    exact Dict.get_erase_self _ _
  · intro hpart
    have hrows : soldRows cfg c p plan curve v gross1 d = [sellFillRow cfg c p plan curve
        (sellFiguresOf cfg plan gross1 d.nextId) d.now] := by
      unfold soldRows sellRows
      simp only [not_le.mpr hpart, and_false, if_false]
    unfold World.units openUnits
    rw [hfold, hrows]
    simp only [LedgerStore.stamp, replay_cons, replay_nil, reduce_positions, sellFillRow, handle]
    rw [onFill_positions_sell _ hget rfl hpos hu, Dict.get_set_self]
    rfl

/-! ### One sell -/

lemma units_of_positions (w : World) : w.units cfg mint =
    unitsHeld (positionsOf w.desk.store.read) mint := by
  unfold World.units openUnits unitsHeld Desk.fold
  rw [replay_initial_positions]

/-- The second check leaves the holding. -/
lemma Confirmed.units {dec : RiskDecision} {d : Desk} (h : Confirmed cfg c p w dec d) :
    (w.withDesk d).units cfg mint = w.units cfg mint := by
  have hcons := check_consulted cfg (c.checkCall cfg .confirming) w.desk
  rw [h.checked] at hcons
  rw [units_of_positions, units_of_positions]
  show unitsHeld (positionsOf d.store.read) mint = _
  rw [positions_engine hcons.store]

lemma held_of_units {d : Desk} {n : ℤ} (h : (w.withDesk d).units cfg mint = n) (hn : 0 < n) :
    ∃ v, heldPosition (d.fold cfg) mint = some v ∧ v.tokenUnits = n := by
  have hunits : openUnits (d.fold cfg) mint = n := h
  unfold openUnits at hunits
  rcases hv : (d.fold cfg).positions.get mint with - | v
  · rw [hv] at hunits
    simp only [Option.map_none, Option.getD_none] at hunits
    omega
  · rw [hv] at hunits
    simp only [Option.map_some, Option.getD_some] at hunits
    exact ⟨v, heldPosition_some.mpr ⟨hv, by omega⟩, hunits⟩

lemma units_none (h : (w.desk.fold cfg).positions.get mint = none) : w.units cfg mint = 0 := by
  unfold World.units openUnits
  rw [h]
  rfl

/-- On a curve that does not move, the price meets its own threshold. -/
lemma quoted_threshold_le {s t n gross : ℤ} (h : sellOut s t n = .ok gross)
    (hfee : cfg.fees.venueFeeBps ≤ 10000) (r : OrderRequest) :
    (gross - cfg.fees.venueFee gross) * (10000 - slippageBps cfg r) / 10000 ≤
      gross - cfg.fees.venueFee gross := by
  have hgross : 0 ≤ gross := sellOut_nonneg h
  have hslip : 0 ≤ slippageBps cfg r :=
    le_min (by have := r.slippage_ge; omega) cfg.limits.slippage_ge
  have hbps : (cfg.fees.venueFeeBps : ℤ) ≤ 10000 := by exact_mod_cast hfee
  have htake : cfg.fees.venueFee gross ≤ gross := by
    unfold FeeModel.venueFee
    refine Int.ediv_le_of_le_mul (by norm_num) ?_
    exact Int.mul_le_mul_of_nonneg_left hbps hgross
  have hout : 0 ≤ gross - cfg.fees.venueFee gross := by omega
  refine Int.ediv_le_of_le_mul (by norm_num) ?_
  exact Int.mul_le_mul_of_nonneg_left (by omega) hout

/-! ### The settlement -/

section Settlement

variable {d : Desk} {v : PositionView} {gross : ℤ}

lemma confirmCurve_sell (h : c.request.side = .sell) (order : ℕ) :
    confirmCurve cfg c order (some curve) w = (.ok curve, w) := by
  unfold confirmCurve
  simp only [h, reduceCtorEq, false_and, if_false]
  rfl

lemma Confirmed.recheck {dec : RiskDecision} (h : Confirmed cfg c p w dec d) :
    confirmRecheck cfg c p.orderId p.dropped w = (.ok dec, w.withDesk d) := by
  unfold confirmRecheck
  rw [Prog.bind_run_ok (onDesk_run h.checked)]
  simp only [h.passed, h.kept, Bool.true_eq_false, Bool.false_eq_true, if_false]
  rfl

lemma sellHolding_fits (hv : heldPosition (d.fold cfg) c.request.mint = some v)
    (hl : plan.filledUnits ≤ v.tokenUnits) :
    sellHolding cfg c p plan (w.withDesk d) = (.ok (some v), w.withDesk d) := by
  have hget := (heldPosition_some.mp hv).1
  unfold sellHolding
  rw [Prog.bind_run_ok (fold_run cfg _)]
  show (if ((heldPosition (d.fold cfg) c.request.mint).map (·.tokenUnits)).getD 0 <
    plan.filledUnits then _ else Pure.pure ((d.fold cfg).positions.get c.request.mint) :
      Prog World Exc _) (w.withDesk d) = _
  rw [hv, Option.map_some, Option.getD_some, if_neg (not_lt.mpr hl), hget]
  rfl

lemma sellSlippage_meets (hg : sellOut curve.sLamports curve.tUnits plan.filledUnits = .ok gross)
    (hin : plan.threshold ≤ gross - cfg.fees.venueFee gross) :
    sellSlippage cfg c p plan curve w = (.ok (gross, gross - cfg.fees.venueFee gross), w) := by
  unfold sellSlippage
  rw [Prog.bind_run_ok (ofExcept_ok_iff.mpr ⟨hg, rfl⟩), if_neg (not_lt.mpr hin)]
  rfl

lemma sellFigures_some (hu : 0 < plan.filledUnits) :
    sellFigures cfg plan gross (gross - cfg.fees.venueFee gross) (w.withDesk d) =
      (.ok (sellFiguresOf cfg plan gross d.nextId), w.withDesk (refDesk d)) := by
  have hprice : decimalDiv gross plan.filledUnits = .ok (gross / plan.filledUnits) :=
    decimalDiv_ok_iff.mpr ⟨hu.ne', rfl⟩
  unfold sellFigures
  rw [hprice]
  rfl

lemma soldRows_fresh (ht : TakesFill d p.orderId) :
    d.store.Fresh (soldRows cfg c p plan curve v gross d) := by
  constructor
  · unfold soldRows sellRows
    simp only
    split_ifs
    · simp [sellFillRow, positionClosedRow]
    · simp
  · intro r hr
    unfold soldRows sellRows at hr
    simp only at hr
    split_ifs at hr
    · rcases List.mem_cons.mp hr with rfl | hr
      · exact ht.fill
      · rw [List.mem_singleton.mp hr]
        exact ht.close
    · rw [List.mem_singleton.mp hr]
      exact ht.fill

lemma sellSettle_takes (w : World) (c : PlaceCall) (plan : SellPlan) (v : PositionView) (gross : ℤ)
    (ht : TakesFill d p.orderId) :
    ∃ fill w', sellSettle cfg c p plan curve (some v) (sellFiguresOf cfg plan gross d.nextId)
      (w.withDesk (refDesk d)) = (.ok fill, w') := by
  have hrun : sellSettle cfg c p plan curve (some v) (sellFiguresOf cfg plan gross d.nextId)
      (w.withDesk (refDesk d)) = (do
        let stored ← onStore (LedgerStore.appendBatch (soldRows cfg c p plan curve v gross d))
        settleMemory p.orderId c.request.mint curve
        pure (sellFill c p plan (sellFiguresOf cfg plan gross d.nextId) stored) :
          Prog World Exc Fill) (w.withDesk (refDesk d)) := rfl
  rcases appendFill_run (w := w) (soldRows cfg c p plan curve v gross d)
    (soldRows_ne_nil p plan curve v gross d) d with ⟨-, -, es, ha⟩ | ⟨hn, -⟩
  · rw [Prog.bind_run_ok ha, Prog.bind_run_ok (settleMemory_run _ _ _ _)] at hrun
    exact ⟨_, _, hrun⟩
  · exact absurd ⟨ht.consistent, soldRows_fresh ht⟩ hn

/-- **A planned sell settles** on the curve it was quoted on, once its second check passes on the
holding it was quoted for. -/
lemma placeCurve1_lands {w₁ : World} {dec : RiskDecision} (h : WholeSell cfg mint w c)
    (hfee : cfg.fees.venueFeeBps ≤ 10000)
    (hg : sellOut curve.sLamports curve.tUnits
      (plannedUnits cfg curve (w.units cfg mint)) = .ok gross)
    (hu : w₁.units cfg mint = w.units cfg mint) (hdec : Confirmed cfg c p w₁ dec d)
    (ht : TakesFill d p.orderId) :
    ∃ fill w', placeCurve1 cfg c p (.sell (planOf cfg c.request (w.units cfg mint)
      (plannedUnits cfg curve (w.units cfg mint)) gross)) (some curve) w₁ =
        (.ok (.done fill), w') := by
  obtain ⟨v, hv, hvu⟩ := held_of_units (hdec.units.trans hu) h.held
  rw [← h.mint_eq] at hv
  have hfits : plannedUnits cfg curve (w.units cfg mint) ≤ v.tokenUnits := by
    rw [plannedUnits_eq, hvu]
    exact min_le_left _ _
  obtain ⟨fill, w', hsettle⟩ := @sellSettle_takes cfg curve p d w₁ c
    (planOf cfg c.request (w.units cfg mint) (plannedUnits cfg curve (w.units cfg mint)) gross)
    v gross ht
  refine ⟨fill, w', ?_⟩
  unfold placeCurve1 sellConfirm
  simp only
  rw [Prog.bind_assoc, Prog.bind_run_ok (confirmCurve_sell h.side _), Prog.bind_assoc,
    Prog.bind_run_ok hdec.recheck, Prog.bind_assoc, Prog.bind_run_ok (sellHolding_fits hv hfits),
    Prog.bind_assoc,
    Prog.bind_run_ok (sellSlippage_meets hg (quoted_threshold_le hg hfee c.request))]
  simp only
  rw [Prog.bind_assoc, Prog.bind_run_ok (sellFigures_some (sellOut_ok_iff.mp hg).2.2.1),
    Prog.bind_run_ok hsettle]
  rfl

end Settlement

/-! ### Runs of sells -/

lemma floor_mono {m n : ℤ} (h : m ≤ n) : liquidityFloor cfg m ≤ liquidityFloor cfg n :=
  Int.mul_le_mul_of_nonneg_left h (Int.natCast_nonneg _)

/-- What one settled sell of the whole leaves. -/
lemma Sale.sold (h : Sale cfg curve mint w c fill w') (hopen : curve.complete = false)
    (hfloor : liquidityFloor cfg (w.units cfg mint) ≤ curve.tUnits) :
    0 < w.units cfg mint ∧ fill.filledUnits = min (w.units cfg mint) (fillCap cfg curve.tUnits) ∧
      SaysSold cfg mint w fill w' := by
  obtain ⟨size, plan, p, w₁, hc, hq, hu, hs⟩ := h
  obtain ⟨-, gross0, hg, rfl⟩ := (quoteAt_ok_iff hc hopen hfloor).mp hq
  obtain ⟨hunits, hfraction, hstatus⟩ := placeCurve1_fill hs
  have hrun := placeCurve1_run cfg c p (.sell (planOf cfg c.request (w.units cfg mint)
    (plannedUnits cfg curve (w.units cfg mint)) gross0)) (some curve) w₁
  rw [hs] at hrun
  have hplanned : fill.filledUnits = min (w.units cfg mint) (fillCap cfg curve.tUnits) := by
    rw [hunits, ← plannedUnits_eq]
    rfl
  have hone : 0 < fill.filledUnits := by
    rw [hunits]
    exact (sellOut_ok_iff.mp hg).2.2.1
  cases hrun with
  | @sold _ plan' curve' dec v gross1 d hplan hcurve hdec hv hheld hp hin hok hf =>
    obtain rfl := Quoted.sell.inj hplan
    have hfits : plannedUnits cfg curve (w.units cfg mint) = fill.filledUnits := hunits.symm
    have hvu : v.tokenUnits = w.units cfg mint := by
      obtain ⟨u, hv', hvu⟩ := held_of_units (hdec.units.trans hu) hc.held
      rw [hc.mint_eq, hv'] at hv
      rw [← Option.some.inj hv, hvu]
    obtain ⟨hall, hpart⟩ := settled_position w₁ p curve' gross1 hv (by rw [← hunits]; exact hone)
    rw [← hunits, hc.mint_eq, hvu] at hall hpart
    refine ⟨hc.held, hplanned, ?_, ?_, ?_, ?_⟩
    · rcases lt_or_ge fill.filledUnits (w.units cfg mint) with hlt | hge
      · exact hpart hlt
      · have hzero : w.units cfg mint - fill.filledUnits = 0 := by
          have := min_le_left (w.units cfg mint) (fillCap cfg curve.tUnits)
          omega
        exact (units_none (hall hge)).trans hzero.symm
    · rw [hfraction, hunits]
      rfl
    · rw [hstatus, hunits]
      rfl
    · intro hfilled
      have hwhole : plannedUnits cfg curve (w.units cfg mint) = w.units cfg mint :=
        hstatus.mp hfilled
      exact hall (hwhole.symm.trans hfits).le
  | bought _ _ _ _ _ _ hq' => cases hq'

lemma Sales.units {fills : List Fill} (h : Sales cfg curve mint fills w w')
    (hopen : curve.complete = false) (hcap : 1 ≤ fillCap cfg curve.tUnits)
    (hfloor : liquidityFloor cfg (w.units cfg mint) ≤ curve.tUnits) (hu : 0 ≤ w.units cfg mint) :
    w'.units cfg mint = max 0 (w.units cfg mint - fills.length * fillCap cfg curve.tUnits) ∧
      (fills ≠ [] → (fills.length - 1) * fillCap cfg curve.tUnits < w.units cfg mint) := by
  induction h with
  | none w => simp [hu]
  | @sale c fill fills w w₁ w₂ w' hsale hsame hs ih =>
    obtain ⟨hheld, hfill, hsays⟩ := hsale.sold hopen hfloor
    have hafter : w₂.units cfg mint =
        max 0 (w.units cfg mint - fillCap cfg curve.tUnits) := by
      rw [hsame, hsays.units, hfill]
      omega
    have hle : w₂.units cfg mint ≤ w.units cfg mint := by
      rw [hafter]
      omega
    obtain ⟨hend, hlast⟩ := ih ((floor_mono hle).trans hfloor) (by rw [hafter]; omega)
    have hnext : ((fills.length : ℤ) + 1) * fillCap cfg curve.tUnits =
        fills.length * fillCap cfg curve.tUnits + fillCap cfg curve.tUnits := by ring
    have hnonneg : 0 ≤ (fills.length : ℤ) * fillCap cfg curve.tUnits := by positivity
    constructor
    · rw [hend, hafter, List.length_cons, Nat.cast_add, Nat.cast_one, hnext]
      omega
    · intro _
      rw [List.length_cons, Nat.cast_add, Nat.cast_one, add_sub_cancel_right]
      rcases eq_or_ne fills [] with rfl | hne
      · simpa using hheld
      · have hstep := hlast hne
        have hprev : ((fills.length : ℤ) - 1) * fillCap cfg curve.tUnits =
          fills.length * fillCap cfg curve.tUnits - fillCap cfg curve.tUnits := by ring
        have hsome : 1 ≤ (fills.length : ℤ) := by
          exact_mod_cast List.length_pos_of_ne_nil hne
        have hone : fillCap cfg curve.tUnits ≤ fills.length * fillCap cfg curve.tUnits :=
          le_mul_of_one_le_left (by omega) hsome
        rw [hafter, hprev] at hstep
        omega

/-- Enough orders of the cap cover a holding, and one fewer do not. -/
lemma orders_cover {held cap : ℤ} (hheld : 0 < held) (hcap : 1 ≤ cap) :
    ∃ n : ℕ, held ≤ n * cap ∧ ∀ m : ℕ, (m - 1) * cap < held → m ≤ n := by
  have hdiv := Int.lt_ediv_add_one_mul_self (held - 1) (show 0 < cap by omega)
  have hnonneg : 0 ≤ (held - 1) / cap := Int.ediv_nonneg (by omega) (by omega)
  refine ⟨((held - 1) / cap + 1).toNat, ?_, fun m hm => ?_⟩
  · rw [Int.toNat_of_nonneg (by omega)]
    omega
  · have hle : (m : ℤ) - 1 ≤ (held - 1) / cap :=
      (Int.le_ediv_iff_mul_le (by omega)).mpr (by omega)
    omega

/-- **Progress.** On an open curve whose token reserves carry the holding over the floor and one
unit under the cap, exits of the whole position make progress. Below the floor each is refused. -/
theorem exit_progress (cfg : DeskConfig) (curve : CurveSnapshot) (mint : Mint) (w : World)
    (hopen : curve.complete = false) (hs : 0 < curve.sLamports) (ht : 0 < curve.tUnits)
    (hfee : cfg.fees.venueFeeBps ≤ 10000) (hheld : 0 < w.units cfg mint) :
    (liquidityFloor cfg (w.units cfg mint) ≤ curve.tUnits → 1 ≤ fillCap cfg curve.tUnits →
      ExitProgress cfg curve mint w) ∧
    (curve.tUnits < liquidityFloor cfg (w.units cfg mint) → ∀ c size, WholeSell cfg mint w c →
      quoteAt cfg curve c size w =
        refuse c.request (.step .belowLiquidityFloor)
          (.tokenFloor curve.tUnits (liquidityFloor cfg (w.units cfg mint))) .accepted {}
          (c.ledgerSource cfg) w) := by
  refine ⟨fun hfloor hcap => ?_, fun hbelow c size hc => quoteAt_below hc hopen hbelow size⟩
  have hkept : ∀ fills w', Sales cfg curve mint fills w w' →
      liquidityFloor cfg (w'.units cfg mint) ≤ curve.tUnits := by
    intro fills w' hsales
    have hunits := (hsales.units hopen hcap hfloor hheld.le).1
    have hnonneg : 0 ≤ (fills.length : ℤ) * fillCap cfg curve.tUnits := by positivity
    exact (floor_mono (by rw [hunits]; omega)).trans hfloor
  refine ⟨fun fills w' hsales c size hc => ?_, fun fills w' hsales c fill w'' hsale => ?_, ?_⟩
  · have hpos := hc.held
    have hplanned := @plannedUnits_eq cfg curve (w'.units cfg mint)
    have hone : 1 ≤ plannedUnits cfg curve (w'.units cfg mint) := by omega
    have hg : sellOut curve.sLamports curve.tUnits
        (plannedUnits cfg curve (w'.units cfg mint)) = .ok _ :=
      sellOut_ok_iff.mpr ⟨hs, ht, by omega, rfl⟩
    refine ⟨_, (quoteAt_ok_iff hc hopen (hkept fills w' hsales)).mpr ⟨rfl, _, hg, rfl⟩, hone, ?_,
      fun p w₁ dec d hu hdec htakes => placeCurve1_lands hc hfee hg hu hdec htakes⟩
    show plannedUnits cfg curve (w'.units cfg mint) ≤ _
    omega
  · exact (hsale.sold hopen (hkept fills w' hsales)).2.2
  · obtain ⟨n, hcover, hfewest⟩ := orders_cover hheld hcap
    refine ⟨n, fun fills w' hsales => ?_⟩
    obtain ⟨hunits, hlast⟩ := hsales.units hopen hcap hfloor hheld.le
    refine ⟨?_, fun hn => ?_⟩
    · rcases eq_or_ne fills [] with rfl | hne
      · exact Nat.zero_le n
      · exact hfewest _ (hlast hne)
    · rw [hunits, hn]
      omega

namespace Sys

/-- The sample desk once its buy has filled. -/
def sampleHolding : World := (sampleAfter (sampleReserves :: samplePlace 0 (sampleBuy 'a' 1))).world

lemma sampleHolding_units : sampleHolding.units sampleConfig (sampleMint 'a') = 3529253463570 := by
  decide +kernel

theorem exit_progress_sample :
    ExitProgress sampleConfig sampleCurve (sampleMint 'a') sampleHolding :=
  (exit_progress sampleConfig sampleCurve (sampleMint 'a') sampleHolding rfl (by decide)
    (by decide) (by decide) (by rw [sampleHolding_units]; decide)).1
    (by rw [sampleHolding_units]; decide) (by decide +kernel)

/-- An open curve with nine times the holding in its token reserve. -/
def grownCurve : CurveSnapshot := { sLamports := 1013443396226, tUnits := 31763281172130 }

/-- A price that grew refuses the exit. -/
theorem grown_price_refuses :
    ¬ ∀ (cfg : DeskConfig) (curve : CurveSnapshot) (mint : Mint) (w : World),
      curve.complete = false → 0 < curve.sLamports → 0 < curve.tUnits →
      cfg.fees.venueFeeBps ≤ 10000 → 0 < w.units cfg mint → ExitProgress cfg curve mint w := by
  intro h
  have hprogress := h sampleConfig grownCurve (sampleMint 'a') sampleHolding rfl (by decide)
    (by decide) (by decide) (by rw [sampleHolding_units]; decide)
  have hwhole : WholeSell sampleConfig (sampleMint 'a') sampleHolding
      (sampleSell 'a' 2 3529253463570 (by norm_num)) :=
    ⟨rfl, ⟨_, rfl⟩, rfl, by rw [sampleHolding_units]; rfl, by rw [sampleHolding_units]; decide⟩
  obtain ⟨plan, hq, -⟩ := hprogress.planned [] sampleHolding (.none _) _ 0 hwhole
  rw [quoteAt_below hwhole rfl (by rw [sampleHolding_units]; decide)] at hq
  exact refuse_ne_ok _ _ _ _ _ _ _ hq

end Sys

end PumpGrok
