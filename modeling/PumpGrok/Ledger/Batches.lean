import PumpGrok.Ledger.Growth
import PumpGrok.Ledger.Reducer

/-!
The batches of the trading path, and what folding one does to the open positions.

`BatchOk` says which payloads a batch may hold next to the positions it is appended to: a fill
opens a position, adds to one, takes a part of one, or empties one together with its closing
row.
-/

namespace PumpGrok

/-- The open positions after some rows. They depend on the rows alone. -/
def positionsOf (es : List Event) : Dict Mint PositionView :=
  (replay (initialState 0 0) es).positions

/-- Every open position holds units. -/
def AllHeld (P : Dict Mint PositionView) : Prop := ∀ m v, P.get m = some v → 0 < v.tokenUnits

inductive BatchOk (P : Dict Mint PositionView) : List Payload → Prop
  | aside (p : Payload) (h : p.isTrade = false) : BatchOk P [p]
  | rejected (p : OrderRejected) (h : 0 ≤ p.feesLamports) : BatchOk P [.orderRejected p]
  | placed (p : OrderPlaced) : BatchOk P [.orderPlaced p]
  | consumed (a : ApprovalRecorded) (p : OrderPlaced) :
      BatchOk P [.approvalRecorded a, .orderPlaced p]
  | marked (p : MarkToMarket) : BatchOk P [.markToMarket p]
  | opened (f : FillRecorded) (o : PositionOpened) (hb : f.side = .buy) (hm : f.mint ≠ [])
      (hn : P.get f.mint = none) (hu : 0 < f.filledUnits) (hc : f.cashDeltaLamports ≤ 0)
      (ho : o.mint = f.mint) (hou : o.tokenUnits = f.filledUnits)
      (hob : o.costBasisLamports = -f.cashDeltaLamports) :
      BatchOk P [.fillRecorded f, .positionOpened o]
  | added (f : FillRecorded) (v : PositionView) (hb : f.side = .buy)
      (hv : P.get f.mint = some v) (hu : 0 < f.filledUnits) (hc : f.cashDeltaLamports ≤ 0) :
      BatchOk P [.fillRecorded f]
  | reduced (f : FillRecorded) (v : PositionView) (hs : f.side = .sell)
      (hv : P.get f.mint = some v) (hu : 0 < f.filledUnits) (hl : f.filledUnits < v.tokenUnits) :
      BatchOk P [.fillRecorded f]
  | closed (f : FillRecorded) (v : PositionView) (c : PositionClosed) (rest : List Payload)
      (hs : f.side = .sell) (hv : P.get f.mint = some v) (hu : 0 < f.filledUnits)
      (hl : f.filledUnits = v.tokenUnits) (hc : c.mint = f.mint)
      (hr : c.realizedPnlLamports = f.cashDeltaLamports - v.costBasisLamports)
      (ha : ∀ p ∈ rest, p.isTrade = false) :
      BatchOk P ([.fillRecorded f, .positionClosed c] ++ rest)

/-- A batch of the trading path or of another writer, in the store it extends. -/
def TradeBatch (st : LedgerStore) (rows : List Row) : Prop :=
  BatchOk (positionsOf st.read) (rows.map Row.payload)

/-! ### Single rows -/

section Rows

variable (s : LedgerState) (ts : ℤ)

lemma handle_aside {p : Payload} (h : p.isTrade = false) :
    (handle s ts p).positions = s.positions ∧ (handle s ts p).cashLamports = s.cashLamports := by
  cases p <;> first | exact ⟨rfl, rfl⟩ | simp [Payload.isTrade] at h

@[simp] lemma onFill_cash (p : FillRecorded) :
    (onFill s p).cashLamports = s.cashLamports + p.cashDeltaLamports := by
  unfold onFill
  simp only [trackPeak_cash]
  split
  · rfl
  · split_ifs <;> rfl

lemma onFill_positions_none {p : FillRecorded} (h : s.positions.get p.mint = none) :
    (onFill s p).positions = s.positions := by
  unfold onFill
  rw [trackPeak_positions, h]

lemma onFill_positions_buy {p : FillRecorded} {v : PositionView}
    (h : s.positions.get p.mint = some v) (hb : p.side = .buy) :
    (onFill s p).positions = s.positions.set p.mint (buyInto v p) := by
  unfold onFill
  rw [trackPeak_positions, h]
  simp only [if_pos hb]

lemma onFill_positions_sell {p : FillRecorded} {v : PositionView}
    (h : s.positions.get p.mint = some v) (hs : p.side = .sell) (hv : 0 < v.tokenUnits)
    (hu : 0 < p.filledUnits) :
    (onFill s p).positions = s.positions.set p.mint (sellFrom v p) := by
  unfold onFill
  rw [trackPeak_positions, h]
  simp [hs, hv, hu]

@[simp] lemma onPositionOpened_cash (p : PositionOpened) :
    (onPositionOpened s p).cashLamports = s.cashLamports := by
  unfold onPositionOpened
  split_ifs
  · rfl
  · rw [trackPeak_cash]

/-- The position an opening row makes. -/
def openedView (p : PositionOpened) : PositionView where
  mint := p.mint
  creator := p.creator
  ticketId := p.ticketId
  priceEntry := p.priceEntry
  pricePeak := p.priceEntry
  tokenUnits := p.tokenUnits
  costBasisLamports := p.costBasisLamports
  openedTs := p.openedTs

lemma onPositionOpened_positions {p : PositionOpened} (h : p.mint ≠ []) :
    (onPositionOpened s p).positions = s.positions.set p.mint (openedView p) := by
  unfold onPositionOpened
  rw [if_neg h, trackPeak_positions]
  rfl

@[simp] lemma onPositionClosed_cash (p : PositionClosed) :
    (onPositionClosed s p).cashLamports = s.cashLamports := by
  unfold onPositionClosed
  rw [trackPeak_cash]

@[simp] lemma onPositionClosed_positions (p : PositionClosed) :
    (onPositionClosed s p).positions = s.positions.erase p.mint := by
  unfold onPositionClosed
  rw [trackPeak_positions]

@[simp] lemma onMtm_cash (p : MarkToMarket) : (onMtm s ts p).cashLamports = s.cashLamports := by
  unfold onMtm
  rw [trackPeak_cash]

@[simp] lemma onMtm_positions (p : MarkToMarket) :
    (onMtm s ts p).positions = p.prices.foldl (markPosition ts) s.positions := by
  unfold onMtm
  rw [trackPeak_positions]

end Rows

/-- The positions after a row depend on the positions before it. -/
lemma handle_positions_congr {s s' : LedgerState} (h : s.positions = s'.positions) (ts : ℤ)
    (p : Payload) : (handle s ts p).positions = (handle s' ts p).positions := by
  cases p with
  | positionOpened p =>
    simp only [handle]
    by_cases hm : p.mint = []
    · simp [onPositionOpened, hm, h]
    · rw [onPositionOpened_positions s hm, onPositionOpened_positions s' hm, h]
  | positionClosed p => simp only [handle, onPositionClosed_positions, h]
  | fillRecorded p =>
    simp only [handle]
    unfold onFill
    rw [trackPeak_positions, trackPeak_positions, h]
    split
    · rfl
    · split_ifs <;> rfl
  | markToMarket p => simp only [handle, onMtm_positions, h]
  | _ => exact h

lemma replay_positions_congr (es : List Event) {s s' : LedgerState}
    (h : s.positions = s'.positions) : (replay s es).positions = (replay s' es).positions := by
  induction es generalizing s s' with
  | nil => exact h
  | cons e es ih => exact ih (handle_positions_congr h e.ts e.payload)

lemma replay_initial_positions (initialEquity day : ℤ) (es : List Event) :
    (replay (initialState initialEquity day) es).positions = positionsOf es :=
  replay_positions_congr es rfl

/-- The cash after a row depends on the cash before it. -/
lemma handle_cash_congr {s s' : LedgerState} (h : s.cashLamports = s'.cashLamports) (ts : ℤ)
    (p : Payload) : (handle s ts p).cashLamports = (handle s' ts p).cashLamports := by
  cases p with
  | positionOpened p => simp only [handle, onPositionOpened_cash, h]
  | positionClosed p => simp only [handle, onPositionClosed_cash, h]
  | fillRecorded p => simp only [handle, onFill_cash, h]
  | markToMarket p => simp only [handle, onMtm_cash, h]
  | orderRejected p => simp only [handle, onRejected, h]
  | _ => exact h

lemma replay_cash_congr (es : List Event) {s s' : LedgerState}
    (h : s.cashLamports = s'.cashLamports) :
    (replay s es).cashLamports = (replay s' es).cashLamports := by
  induction es generalizing s s' with
  | nil => exact h
  | cons e es ih => exact ih (handle_cash_congr h e.ts e.payload)

lemma positionsOf_append (es fs : List Event) (s : LedgerState)
    (h : s.positions = positionsOf es) :
    (replay s fs).positions = positionsOf (es ++ fs) := by
  rw [positionsOf, replay_append]
  exact replay_positions_congr fs h

/-! ### Marks -/

/-- What a mark leaves of a position. -/
def PositionView.holding (v : PositionView) : ℤ × ℤ × Creator :=
  (v.tokenUnits, v.costBasisLamports, v.creator)

/-- The same mints are held, with the same holdings. -/
def SameHoldings (P P' : Dict Mint PositionView) : Prop :=
  ∀ m, (P'.get m).map PositionView.holding = (P.get m).map PositionView.holding

namespace SameHoldings

variable {P P' P'' : Dict Mint PositionView}

lemma refl (P : Dict Mint PositionView) : SameHoldings P P := fun _ => rfl

lemma trans (h : SameHoldings P P') (h' : SameHoldings P' P'') : SameHoldings P P'' :=
  fun m => (h' m).trans (h m)

lemma get_some (h : SameHoldings P P') {m : Mint} {v : PositionView} (hv : P'.get m = some v) :
    ∃ u, P.get m = some u ∧ u.holding = v.holding := by
  have := h m
  rw [hv] at this
  rcases hu : P.get m with - | u
  · simp [hu] at this
  · exact ⟨u, rfl, by simpa [hu, eq_comm] using this⟩

lemma allHeld (h : SameHoldings P P') (hp : AllHeld P) : AllHeld P' := by
  intro m v hv
  obtain ⟨u, hu, huv⟩ := h.get_some hv
  have h₁ : u.tokenUnits = v.tokenUnits := congrArg Prod.fst huv
  have := hp m u hu
  omega

end SameHoldings

lemma markPosition_holdings (ts : ℤ) (P : Dict Mint PositionView) (m : Mint × Mark) :
    SameHoldings P (markPosition ts P m) := by
  unfold markPosition
  rcases hv : P.get m.1 with - | v
  · exact SameHoldings.refl P
  · simp only
    split_ifs
    · exact SameHoldings.refl P
    · intro k
      rw [Dict.get_set]
      split_ifs with hk
      · rw [hk, hv]
        rfl
      · rfl

lemma marks_holdings (ts : ℤ) (marks : List (Mint × Mark)) (P : Dict Mint PositionView) :
    SameHoldings P (marks.foldl (markPosition ts) P) := by
  induction marks generalizing P with
  | nil => exact SameHoldings.refl P
  | cons m ms ih => exact (markPosition_holdings ts P m).trans (ih _)

/-! ### What a batch does to the positions -/

/-- The positions after the rows of a batch: those of before, or with one mint's changed. -/
inductive PositionsAfter (P : Dict Mint PositionView) (ps : List Payload) :
    Dict Mint PositionView → Prop
  | same {P' : Dict Mint PositionView} (h : SameHoldings P P')
      (hf : ∀ p ∈ ps, ∀ f, p ≠ .fillRecorded f) (hc : ∀ p ∈ ps, ∀ c, p ≠ .positionClosed c) :
      PositionsAfter P ps P'
  | opened (f : FillRecorded) (o : PositionOpened) (hp : ps = [.fillRecorded f, .positionOpened o])
      (hb : f.side = .buy) (hn : P.get f.mint = none) (hu : 0 < f.filledUnits)
      (ho : o.mint = f.mint) (hou : o.tokenUnits = f.filledUnits) :
      PositionsAfter P ps (P.set f.mint (openedView o))
  | added (f : FillRecorded) (v : PositionView) (hp : ps = [.fillRecorded f]) (hb : f.side = .buy)
      (hv : P.get f.mint = some v) (hu : 0 < f.filledUnits) :
      PositionsAfter P ps (P.set f.mint (buyInto v f))
  | reduced (f : FillRecorded) (v : PositionView) (hp : ps = [.fillRecorded f])
      (hs : f.side = .sell) (hv : P.get f.mint = some v) (hu : 0 < f.filledUnits)
      (hl : f.filledUnits < v.tokenUnits) : PositionsAfter P ps (P.set f.mint (sellFrom v f))
  | closed (f : FillRecorded) (v : PositionView) (c : PositionClosed) (rest : List Payload)
      (hp : ps = [.fillRecorded f, .positionClosed c] ++ rest) (hs : f.side = .sell)
      (hv : P.get f.mint = some v) (hu : 0 < f.filledUnits) (hl : f.filledUnits = v.tokenUnits)
      (hc : c.mint = f.mint) (ha : ∀ p ∈ rest, p.isTrade = false) :
      PositionsAfter P ps ((P.set f.mint (sellFrom v f)).erase f.mint)

lemma replay_asides {s : LedgerState} {es : List Event}
    (h : ∀ e ∈ es, e.payload.isTrade = false) : (replay s es).positions = s.positions := by
  induction es generalizing s with
  | nil => rfl
  | cons e es ih =>
    rw [replay_cons, ih fun x hx => h x (List.mem_cons_of_mem _ hx), reduce_positions,
      (handle_aside s e.ts (h e (by simp))).1]

/-- **Folding a batch** changes the positions as its rows say. -/
theorem BatchOk.positionsAfter {s : LedgerState} {es : List Event} (hh : AllHeld s.positions)
    (h : BatchOk s.positions (es.map (·.payload))) :
    PositionsAfter s.positions (es.map (·.payload)) (replay s es).positions := by
  generalize hp : es.map (·.payload) = ps at h ⊢
  cases h with
  | aside p ha =>
    obtain ⟨e, rfl, rfl⟩ := List.map_eq_singleton_iff.mp hp
    refine .same ?_ ?_ ?_
    · rw [replay_cons, replay_nil, reduce_positions, (handle_aside s e.ts ha).1]
      exact SameHoldings.refl _
    · rintro p hm f rfl
      rw [← List.mem_singleton.mp hm] at ha
      simp [Payload.isTrade] at ha
    · rintro p hm f rfl
      rw [← List.mem_singleton.mp hm] at ha
      simp [Payload.isTrade] at ha
  | rejected p =>
    obtain ⟨e, rfl, he⟩ := List.map_eq_singleton_iff.mp hp
    refine .same ?_ (by simp) (by simp)
    rw [replay_cons, replay_nil, reduce_positions, he]
    exact SameHoldings.refl _
  | placed p =>
    obtain ⟨e, rfl, he⟩ := List.map_eq_singleton_iff.mp hp
    refine .same ?_ (by simp) (by simp)
    rw [replay_cons, replay_nil, reduce_positions, he]
    exact SameHoldings.refl _
  | consumed a p =>
    obtain ⟨e, es, rfl, he, hes⟩ := List.map_eq_cons_iff.mp hp
    obtain ⟨e', rfl, he'⟩ := List.map_eq_singleton_iff.mp hes
    refine .same ?_ (by simp) (by simp)
    rw [replay_cons, replay_cons, replay_nil, reduce_positions, he']
    simp only [handle, reduce_positions, he]
    exact SameHoldings.refl _
  | marked p =>
    obtain ⟨e, rfl, he⟩ := List.map_eq_singleton_iff.mp hp
    refine .same ?_ (by simp) (by simp)
    rw [replay_cons, replay_nil, reduce_positions, he, handle, onMtm_positions]
    exact marks_holdings _ _ _
  | opened f o hb hm hn hu hc ho hou hob =>
    obtain ⟨e, es, rfl, he, hes⟩ := List.map_eq_cons_iff.mp hp
    obtain ⟨e', rfl, he'⟩ := List.map_eq_singleton_iff.mp hes
    have hr : (replay s [e, e']).positions = s.positions.set f.mint (openedView o) := by
      rw [replay_cons, replay_cons, replay_nil, reduce_positions, he', handle,
        onPositionOpened_positions _ (ho ▸ hm), reduce_positions, he, handle,
        onFill_positions_none s hn, ho]
    rw [hr]
    exact .opened f o rfl hb hn hu ho hou
  | added f v hb hv hu hc =>
    obtain ⟨e, rfl, he⟩ := List.map_eq_singleton_iff.mp hp
    rw [replay_cons, replay_nil, reduce_positions, he, handle, onFill_positions_buy s hv hb]
    exact .added f v rfl hb hv hu
  | reduced f v hs hv hu hl =>
    obtain ⟨e, rfl, he⟩ := List.map_eq_singleton_iff.mp hp
    rw [replay_cons, replay_nil, reduce_positions, he, handle,
      onFill_positions_sell s hv hs (hh _ v hv) hu]
    exact .reduced f v rfl hs hv hu hl
  | closed f v c rest hs hv hu hl hc hr ha =>
    obtain ⟨e, es, rfl, he, hes⟩ := List.map_eq_cons_iff.mp hp
    obtain ⟨e', rs, rfl, he', hrs⟩ := List.map_eq_cons_iff.mp hes
    have hrest : rs.map (·.payload) = rest := hrs
    have hpos : (replay s (e :: e' :: rs)).positions =
        (s.positions.set f.mint (sellFrom v f)).erase f.mint := by
      rw [replay_cons, replay_cons, replay_asides fun x hx => ha _ (hrest ▸ List.mem_map_of_mem hx),
        reduce_positions, he', handle, onPositionClosed_positions, hc, reduce_positions, he, handle,
        onFill_positions_sell s hv hs (hh _ v hv) hu]
    rw [hpos]
    exact .closed f v c rest rfl hs hv hu hl hc ha

/-- Positions keep holding units. -/
lemma PositionsAfter.allHeld {P P' : Dict Mint PositionView} {ps : List Payload}
    (h : PositionsAfter P ps P') (hp : AllHeld P) : AllHeld P' := by
  have hset : ∀ (k : Mint) (w : PositionView), 0 < w.tokenUnits → AllHeld (P.set k w) := by
    intro k w hw m v hv
    rw [Dict.get_set] at hv
    split_ifs at hv with hm
    · rw [← Option.some.inj hv]
      exact hw
    · exact hp m v hv
  cases h with
  | same h => exact h.allHeld hp
  | opened f o _ _ _ hu _ hou => exact hset _ _ (by simpa [openedView, hou] using hu)
  | added f v _ _ hv hu =>
    have := hp _ v hv
    exact hset _ _ (by simp only [buyInto]; omega)
  | reduced f v _ _ hv hu hl => exact hset _ _ (by simp only [sellFrom]; omega)
  | closed f v c rest _ _ hv =>
    intro m w hw
    rw [Dict.get_erase, Dict.get_set] at hw
    split_ifs at hw with hm
    exact hp m w hw

end PumpGrok
