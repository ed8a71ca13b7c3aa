import PumpGrok.Backtest.EquityPath
import PumpGrok.Ledger.Valuation

/-!
The readings of an open position: the adapter's positions and equity, the ledger views, the daily
report, the backtest valuation and the peak tracker.

The equities value a position at its last mark or, until there is one, at its cost basis. The
adapter's positions and the report's rows read the last mark alone, which is zero until then.
-/

namespace PumpGrok

/-! ### The adapter -/

/-- What `positions` returns for one open position. -/
structure Position where
  ticketId : TicketId
  mint : Mint
  priceEntry : ℚ
  pricePeak : ℚ
  costBasisLamports : ℤ
  tokenUnits : ℤ
  openedAt : ℤ
  lastMtmLamports : ℤ
  unrealisedPnlLamports : ℤ
  mtmFrozen : Bool

namespace PaperAdapter

def position (key : Mint) (view : PositionView) : Position where
  ticketId := view.ticketId
  mint := key
  priceEntry := view.priceEntry
  pricePeak := view.pricePeak
  costBasisLamports := view.costBasisLamports
  tokenUnits := view.tokenUnits
  openedAt := view.openedTs
  lastMtmLamports := view.lastMtmLamports
  unrealisedPnlLamports := view.lastMtmLamports - view.costBasisLamports
  mtmFrozen := view.mtmFrozen

/-- The open positions, or those of one mint. -/
def positions (state : LedgerState) (mint : Option Mint) : List Position :=
  state.positions.entries.filterMap fun x =>
    if x.2.tokenUnits ≤ 0 then none
    else if mint.any (· ≠ x.1) then none
    else some (position x.1 x.2)

def equityLamports (state : LedgerState) : ℤ :=
  state.cashLamports +
    ((state.positions.entries.filter fun x => 0 < x.2.tokenUnits).map fun x =>
      positionValueLamports x.2).sum

end PaperAdapter

/-! ### The ledger views -/

namespace Views

def positions (state : LedgerState) : List (Mint × PositionView) :=
  state.positions.entries.filter fun x => 0 < x.2.tokenUnits

def unrealizedPnlLamports (state : LedgerState) : ℤ :=
  ((positions state).map fun x => positionValueLamports x.2 - x.2.costBasisLamports).sum

def equityLamports (state : LedgerState) : ℤ :=
  state.cashLamports + ((positions state).map fun x => positionValueLamports x.2).sum

end Views

/-! ### The daily report -/

structure PositionRow where
  mint : Text
  entryLamports : ℤ
  mtmLamports : ℤ
  unrealizedLamports : ℤ
  mtmFrozen : Bool

def positionRow (x : Mint × PositionView) : PositionRow where
  mint := x.1.take 8
  entryLamports := x.2.costBasisLamports
  mtmLamports := x.2.lastMtmLamports
  unrealizedLamports := x.2.lastMtmLamports - x.2.costBasisLamports
  mtmFrozen := x.2.mtmFrozen

/-- The open positions in the order of their mints. -/
def byMint (state : LedgerState) : List (Mint × PositionView) :=
  (Views.positions state).mergeSort fun x y => decide (x.1 ≤ y.1)

def positionRows (state : LedgerState) : List PositionRow := (byMint state).map positionRow

/-- What the report states of a folded state. -/
structure ReportModel where
  equityEndLamports : ℤ
  unrealizedLamports : ℤ
  positionRows : List PositionRow

def dailyReport (state : LedgerState) : ReportModel where
  equityEndLamports := Views.equityLamports state
  unrealizedLamports := Views.unrealizedPnlLamports state
  positionRows := positionRows state

/-! ### One valuation -/

/-- Value less cost basis. -/
def valueOverCost (v : PositionView) : ℤ := positionValueLamports v - v.costBasisLamports

/-- Every reading of the open positions uses `positionValueLamports`. -/
structure OneValuation (state : LedgerState) : Prop where
  adapter : ∀ mint, (PaperAdapter.positions state mint).map (·.unrealisedPnlLamports) =
    ((Views.positions state).filter fun x => !mint.any (· ≠ x.1)).map fun x => valueOverCost x.2
  rows : (dailyReport state).positionRows.map (·.unrealizedLamports) =
    (byMint state).map fun x => valueOverCost x.2
  total : ((dailyReport state).positionRows.map (·.unrealizedLamports)).sum =
    (dailyReport state).unrealizedLamports
  equity : PaperAdapter.equityLamports state = Views.equityLamports state ∧
    (dailyReport state).equityEndLamports = Views.equityLamports state ∧
    Backtest.equityLamports state = Views.equityLamports state ∧
    (trackPeak state).peakEquityLamports =
      max state.peakEquityLamports (Views.equityLamports state)

/-- An open position that was never marked and whose last mark is not its cost. -/
def Unmarked (state : LedgerState) (m : Mint) (v : PositionView) : Prop :=
  state.positions.get m = some v ∧ 0 < v.tokenUnits ∧ v.lastMtmTs = none ∧
    v.lastMtmLamports ≠ v.costBasisLamports

variable {state : LedgerState}

lemma views_equity (state : LedgerState) : Views.equityLamports state = equityLamports state := by
  rw [Views.equityLamports, Views.positions, equityLamports, Dict.total]
  congr 1
  induction state.positions.entries with
  | nil => rfl
  | cons x xs ih =>
    by_cases hx : 0 < x.2.tokenUnits <;> simp [hx, ih]

/-- **The equities** of the five readers are one number. -/
lemma equity_agrees (state : LedgerState) :
    PaperAdapter.equityLamports state = Views.equityLamports state ∧
      (dailyReport state).equityEndLamports = Views.equityLamports state ∧
      Backtest.equityLamports state = Views.equityLamports state ∧
      (trackPeak state).peakEquityLamports =
        max state.peakEquityLamports (Views.equityLamports state) := by
  refine ⟨rfl, rfl, ?_, ?_⟩
  · rw [Backtest.equityLamports, Views.equityLamports, Views.positions]
    generalize state.cashLamports = cash
    induction state.positions.entries generalizing cash with
    | nil => simp
    | cons x xs ih =>
      rw [List.foldl_cons, ih]
      by_cases hx : 0 < x.2.tokenUnits
      · have hle : ¬ x.2.tokenUnits ≤ 0 := by omega
        simp [hx, hle, positionValueLamports]
        ring
      · have hle : x.2.tokenUnits ≤ 0 := by omega
        simp [hx, hle]
  · rw [views_equity, trackPeak]
    split_ifs with h
    · exact (max_eq_right (le_of_lt h)).symm
    · exact (max_eq_left (not_lt.mp h)).symm

lemma adapter_positions (state : LedgerState) (mint : Option Mint) :
    PaperAdapter.positions state mint =
      ((Views.positions state).filter fun x => !mint.any (· ≠ x.1)).map fun x =>
        PaperAdapter.position x.1 x.2 := by
  rw [PaperAdapter.positions, Views.positions]
  induction state.positions.entries with
  | nil => rfl
  | cons x xs ih =>
    rw [List.filterMap_cons, ih]
    by_cases hx : 0 < x.2.tokenUnits
    · have hle : ¬ x.2.tokenUnits ≤ 0 := by omega
      by_cases hm : (mint.any (· ≠ x.1)) = true
      · simp only [hle, hx, hm, if_false, if_true, decide_true, List.filter_cons_of_pos,
          Bool.not_true, Bool.false_eq_true, not_false_eq_true, List.filter_cons_of_neg]
      · rw [Bool.not_eq_true] at hm
        simp only [hle, hx, hm, if_false, decide_true, List.filter_cons_of_pos, Bool.not_false,
          Bool.false_eq_true, List.map_cons]
    · have hle : x.2.tokenUnits ≤ 0 := by omega
      simp [hle, hx]

lemma mem_views {x : Mint × PositionView} :
    x ∈ Views.positions state ↔ state.positions.get x.1 = some x.2 ∧ 0 < x.2.tokenUnits := by
  rw [Views.positions, List.mem_filter, ← Dict.mem_entries_iff, decide_eq_true_iff]

lemma byMint_perm (state : LedgerState) : (byMint state).Perm (Views.positions state) :=
  List.mergeSort_perm _ _

/-- The last mark is the value exactly when there is a mark or it is the cost. -/
lemma raw_mark_iff (m : Mint) {v : PositionView} (hv : state.positions.get m = some v)
    (hu : 0 < v.tokenUnits) :
    v.lastMtmLamports - v.costBasisLamports = valueOverCost v ↔ ¬ Unmarked state m v := by
  rcases hts : v.lastMtmTs with - | ts
  · simp [valueOverCost, positionValueLamports, Unmarked, hv, hu, hts, sub_eq_zero]
  · simp [valueOverCost, positionValueLamports, Unmarked, hts]

/-- **One valuation.** In every folded state, from any state: the readings of the open positions
agree if and only if each has a mark, or a last mark equal to its cost. -/
theorem one_valuation_iff (genesis : LedgerState) (rows : List Event) :
    OneValuation (replay genesis rows) ↔ ∀ m v, ¬ Unmarked (replay genesis rows) m v := by
  generalize replay genesis rows = state
  constructor
  · rintro ⟨-, hrows, -, -⟩ m v hm
    obtain ⟨hv, hu, -⟩ := id hm
    have hmem : (m, v) ∈ byMint state := (byMint_perm state).mem_iff.mpr (mem_views.mpr ⟨hv, hu⟩)
    rw [dailyReport, positionRows, List.map_map] at hrows
    exact (raw_mark_iff m hv hu).mp (List.map_inj_left.mp hrows (m, v) hmem) hm
  · intro h
    have hvalue : ∀ x ∈ Views.positions state,
        x.2.lastMtmLamports - x.2.costBasisLamports = valueOverCost x.2 := by
      intro x hx
      obtain ⟨hv, hu⟩ := mem_views.mp hx
      exact (raw_mark_iff x.1 hv hu).mpr (h x.1 x.2)
    have hrows : (dailyReport state).positionRows.map (·.unrealizedLamports) =
        (byMint state).map fun x => valueOverCost x.2 := by
      rw [dailyReport, positionRows, List.map_map]
      exact List.map_congr_left fun x hx => hvalue x ((byMint_perm state).mem_iff.mp hx)
    refine ⟨fun mint => ?_, hrows, ?_, equity_agrees state⟩
    · rw [adapter_positions, List.map_map]
      exact List.map_congr_left fun x hx => hvalue x (List.mem_of_mem_filter hx)
    · rw [hrows, ((byMint_perm state).map _).sum_eq]
      rfl

/-- After a buy the adapter reads the position as a loss of its whole cost. -/
theorem fresh_position_read_as_loss :
    ¬ OneValuation (replay (initialState 10000000000 0)
      (Sys.sampleAfter
        (Sys.sampleReserves :: Sys.samplePlace 0 (Sys.sampleBuy 'a' 1))).store.read) := by
  intro h
  have hadapter := h.adapter none
  revert hadapter
  decide +kernel

end PumpGrok
