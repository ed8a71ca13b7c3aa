import PumpGrok.Ledger.Batches

/-!
What a fill of a marked position does to the equity. A sale takes its share of the mark, so it
lifts nothing; an add-on pays its whole debit, as the mark stays that of the units held before.
-/

namespace PumpGrok

/-- The price of the reserves a fill was settled at. -/
def FillRecorded.spot (p : FillRecorded) : ℚ := p.curveAfter.1 / p.curveAfter.2

/-- What a buy pays into the curve beyond the worth of its units at that price. -/
def FillRecorded.priceImpact (p : FillRecorded) : ℚ :=
  p.filledLamports - p.venueFeeLamports - p.filledUnits * p.spot

/-- The fees and the price impact of a buy. -/
def FillRecorded.ownCosts (p : FillRecorded) : ℚ :=
  p.venueFeeLamports + p.networkCostLamports + p.priceImpact

/-- A fill as the adapter records it: reserves and units are positive, and a buy is debited its
size and the network costs. -/
structure FillRecorded.Settled (p : FillRecorded) : Prop where
  sReserve : 0 < p.curveAfter.1
  tReserve : 0 < p.curveAfter.2
  units : 0 < p.filledUnits
  network : 0 ≤ p.networkCostLamports
  size : p.side = .buy → 0 ≤ p.filledLamports
  debit : p.side = .buy → p.cashDeltaLamports = -(p.filledLamports + p.networkCostLamports)

/-- A position that holds units and was marked. -/
structure MarkedAt (s : LedgerState) (m : Mint) (v : PositionView) : Prop where
  get : s.positions.get m = some v
  held : 0 < v.tokenUnits
  marked : v.lastMtmTs.isSome = true

/-- A fill of a marked position moves the equity by its own costs only. -/
structure MovesByOwnCosts (s : LedgerState) (p : FillRecorded) : Prop where
  added : ∀ v, MarkedAt s p.mint v → p.side = .buy →
    (|equityLamports (onFill s p) - equityLamports s| : ℤ) ≤ p.ownCosts
  reduced : ∀ v, MarkedAt s p.mint v → p.side = .sell → p.filledUnits < v.tokenUnits →
    (p.cashDeltaLamports : ℚ) ≤ v.lastMtmLamports * p.filledUnits / v.tokenUnits →
    equityLamports (onFill s p) ≤ equityLamports s

variable {s : LedgerState} {p : FillRecorded} {v : PositionView}

lemma FillRecorded.Settled.spot_pos (h : p.Settled) : 0 < p.spot :=
  div_pos (Int.cast_pos.mpr h.sReserve) (Int.cast_pos.mpr h.tReserve)

lemma equity_onFill_eq {q : PositionView} (hv : MarkedAt s p.mint v)
    (hp : (onFill s p).positions = s.positions.set p.mint q)
    (hq : q.lastMtmTs = v.lastMtmTs) (hu : 0 < q.tokenUnits) :
    equityLamports (onFill s p) =
      equityLamports s + p.cashDeltaLamports + (q.lastMtmLamports - v.lastMtmLamports) := by
  have hvalue : positionValueLamports v = v.lastMtmLamports := if_pos hv.marked
  have hqvalue : positionValueLamports q = q.lastMtmLamports := if_pos (by rw [hq]; exact hv.marked)
  rw [equityLamports, onFill_cash, hp, Dict.total_set_old _ _ hv.get, if_pos hu, if_pos hv.held,
    hvalue, hqvalue, equityLamports]
  ring

/-- **An add-on** costs the equity its whole debit. -/
theorem equity_added (hv : MarkedAt s p.mint v) (hb : p.side = .buy) (hu : 0 < p.filledUnits) :
    equityLamports (onFill s p) = equityLamports s + p.cashDeltaLamports := by
  have hheld : 0 < (buyInto v p).tokenUnits := by
    have := hv.held
    show 0 < v.tokenUnits + p.filledUnits
    omega
  have h := equity_onFill_eq hv (onFill_positions_buy s hv.get hb) rfl hheld
  have hmark : (buyInto v p).lastMtmLamports = v.lastMtmLamports := rfl
  rw [h, hmark]
  ring

/-- **A partial sale** at no more than its share of the mark lifts nothing. -/
theorem equity_reduced (hv : MarkedAt s p.mint v) (hs : p.side = .sell) (hu : 0 < p.filledUnits)
    (hl : p.filledUnits < v.tokenUnits)
    (hc : (p.cashDeltaLamports : ℚ) ≤ v.lastMtmLamports * p.filledUnits / v.tokenUnits) :
    equityLamports (onFill s p) ≤ equityLamports s := by
  have hheld : 0 < (sellFrom v p).tokenUnits := by
    show 0 < v.tokenUnits - p.filledUnits
    omega
  rw [equity_onFill_eq hv (onFill_positions_sell s hv.get hs hv.held hu) rfl hheld]
  have hshare : (sellFrom v p).lastMtmLamports ≤
      v.lastMtmLamports * (v.tokenUnits - p.filledUnits) / v.tokenUnits := min_le_left _ _
  have hunits : (0 : ℚ) < v.tokenUnits := Int.cast_pos.mpr hv.held
  have hshare' : ((sellFrom v p).lastMtmLamports : ℚ) ≤
      v.lastMtmLamports * (v.tokenUnits - p.filledUnits) / v.tokenUnits := by
    rw [le_div_iff₀ hunits]
    have h := (Int.le_ediv_iff_mul_le hv.held).mp hshare
    exact_mod_cast h
  have hsum : (p.cashDeltaLamports : ℚ) + (sellFrom v p).lastMtmLamports ≤ v.lastMtmLamports := by
    calc (p.cashDeltaLamports : ℚ) + (sellFrom v p).lastMtmLamports
        ≤ v.lastMtmLamports * p.filledUnits / v.tokenUnits +
          v.lastMtmLamports * (v.tokenUnits - p.filledUnits) / v.tokenUnits := add_le_add hc hshare'
      _ = v.lastMtmLamports := by
        field_simp
        ring
  have hint : p.cashDeltaLamports + (sellFrom v p).lastMtmLamports ≤ v.lastMtmLamports := by
    exact_mod_cast hsum
  linarith

/-- **Own costs only.** A settled fill moves the equity by its own costs only exactly when it does
not add to a marked position. -/
theorem moves_by_own_costs_iff (s : LedgerState) (p : FillRecorded) (h : p.Settled) :
    MovesByOwnCosts s p ↔ ¬ (p.side = .buy ∧ ∃ v, MarkedAt s p.mint v) := by
  constructor
  · rintro hm ⟨hb, v, hv⟩
    have hle := hm.added v hv hb
    rw [equity_added hv hb h.units, h.debit hb] at hle
    have habs : |equityLamports s + -(p.filledLamports + p.networkCostLamports) -
        equityLamports s| = p.filledLamports + p.networkCostLamports := by
      have h₁ := h.size hb
      have h₂ := h.network
      rw [add_sub_cancel_left, abs_neg, abs_of_nonneg (by omega)]
    rw [habs, FillRecorded.ownCosts, FillRecorded.priceImpact] at hle
    have hworth : (0 : ℚ) < p.filledUnits * p.spot :=
      mul_pos (Int.cast_pos.mpr h.units) h.spot_pos
    push_cast at hle
    linarith
  · intro hnot
    exact ⟨fun v hv hb => absurd ⟨hb, v, hv⟩ hnot, fun v hv hs hl hc =>
      equity_reduced hv hs h.units hl hc⟩

namespace OwnCosts

def mint : Mint := "a".toList

/-- A tenth of a SOL in, at the curve a launch starts with. -/
def bought : FillRecorded where
  orderId := 1
  decisionId := some 1
  side := .buy
  mint := mint
  filledLamports := 100000000
  filledUnits := 3529253463570
  filledFraction := 1
  priceAvg := 99000000 / 3529253463570
  venueFeeLamports := 1000000
  networkCostLamports := 9000
  cashDeltaLamports := -100009000
  venueTxRef := 1
  curveBefore := (30000000000, 1073000000000000)
  curveAfter := (30000000000, 1073000000000000)

def opened : PositionOpened where
  mint := mint
  priceEntry := 99000000 / 3529253463570
  tokenUnits := 3529253463570
  costBasisLamports := 100009000
  openedTs := 0
  creator := []
  ticketId := []

def marked : MarkToMarket where
  tsSource := 1
  cashLamports := 9899991000
  equityLamports := 9997688000
  unrealizedLamports := -2312000
  prices := [(mint, { mtmLamports := 97697000, venueFeeLamports := 987000, spot := 1, ts := none })]

/-- A position bought and marked. -/
def folded : LedgerState :=
  onMtm (onPositionOpened (onFill (initialState 10000000000 0) bought) opened) 1 marked

lemma bought_settled : bought.Settled :=
  ⟨by decide, by decide, by decide, by decide, fun _ => by decide, fun _ => rfl⟩

lemma folded_marked : ∃ v, MarkedAt folded mint v := by
  have h : ∃ v, folded.positions.get mint = some v ∧ 0 < v.tokenUnits ∧
      v.lastMtmTs.isSome = true := ⟨_, by rfl, by decide +kernel, by decide +kernel⟩
  obtain ⟨v, hg, hu, hm⟩ := h
  exact ⟨v, hg, hu, hm⟩

/-- A partial sale of the same position. -/
def sold : FillRecorded :=
  { bought with
    side := .sell
    filledUnits := 1000000000000
    filledLamports := 27000000
    cashDeltaLamports := 27000000 }

end OwnCosts

theorem moves_by_own_costs_sold : MovesByOwnCosts OwnCosts.folded OwnCosts.sold :=
  (moves_by_own_costs_iff OwnCosts.folded OwnCosts.sold
    ⟨by decide, by decide, by decide, by decide, by decide, by decide⟩).mpr fun h => nomatch h.1

/-- A second buy of the same size is read as a loss of all it paid. -/
theorem add_on_read_as_loss : ¬ MovesByOwnCosts OwnCosts.folded OwnCosts.bought := by
  intro h
  obtain ⟨v, hv⟩ := OwnCosts.folded_marked
  have hle := h.added v hv rfl
  rw [equity_added hv rfl OwnCosts.bought_settled.units] at hle
  revert hle
  rw [add_sub_cancel_left]
  norm_num [FillRecorded.ownCosts, FillRecorded.priceImpact, FillRecorded.spot, OwnCosts.bought]

end PumpGrok
