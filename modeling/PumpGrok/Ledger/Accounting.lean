import PumpGrok.Ledger.Batches

/-!
Conservation of cash and cost basis. Realized profit is booked in two places, the slice of a
partial sale by the fold and the rest by the closing row; over whole batches the two with the
fees of refused orders account for every lamport.
-/

namespace PumpGrok

/-- The cost basis of the open positions. -/
def openBasis (s : LedgerState) : ℤ :=
  s.positions.total fun p => if 0 < p.tokenUnits then p.costBasisLamports else 0

/-- The realized slice the fold books for a row: that of a sell fill of a held mint. -/
def sliceOf (s : LedgerState) (e : Event) : ℤ :=
  match e.payload with
  | .fillRecorded p =>
    match s.positions.get p.mint with
    | some v =>
      if p.side = .sell ∧ 0 < v.tokenUnits ∧ 0 < p.filledUnits then sliceRealized v p else 0
    | none => 0
  | _ => 0

/-- The slices of the rows folded from a state. -/
def slicesRealized : LedgerState → List Event → ℤ
  | _, [] => 0
  | s, e :: es => sliceOf s e + slicesRealized (reduce s e) es

def closeRealized (e : Event) : ℤ :=
  match e.payload with
  | .positionClosed p => p.realizedPnlLamports
  | _ => 0

def closesRealized (es : List Event) : ℤ := (es.map closeRealized).sum

def rejectionFee (e : Event) : ℤ :=
  match e.payload with
  | .orderRejected p => p.feesLamports
  | _ => 0

def rejectionFees (es : List Event) : ℤ := (es.map rejectionFee).sum

lemma slicesRealized_append (s : LedgerState) (es fs : List Event) :
    slicesRealized s (es ++ fs) = slicesRealized s es + slicesRealized (replay s es) fs := by
  induction es generalizing s with
  | nil => simp [slicesRealized]
  | cons e es ih =>
    simp only [List.cons_append, slicesRealized, replay_cons, ih]
    ring

/-- Cash and basis after some rows, less what they started from, is what the rows booked. -/
def Balanced (s : LedgerState) (es : List Event) : Prop :=
  (replay s es).cashLamports + openBasis (replay s es) =
    s.cashLamports + openBasis s + slicesRealized s es + closesRealized es - rejectionFees es

lemma Balanced.append {s : LedgerState} {es fs : List Event} (h : Balanced s es)
    (h' : Balanced (replay s es) fs) : Balanced s (es ++ fs) := by
  unfold Balanced closesRealized rejectionFees at *
  rw [replay_append, slicesRealized_append, List.map_append, List.map_append, List.sum_append,
    List.sum_append]
  linarith

/-- The basis an apportioned sale leaves and the part it takes are the whole basis. -/
lemma sellFrom_basis (v : PositionView) (p : FillRecorded) :
    (sellFrom v p).costBasisLamports + basisReduction v p.filledUnits = v.costBasisLamports := by
  simp [sellFrom]

/-- A measure of the holdings alone is the same after a mark. -/
lemma markPosition_total {P : Dict Mint PositionView} {f : PositionView → ℤ}
    (hf : ∀ u v : PositionView, u.holding = v.holding → f u = f v) (ts : ℤ)
    (m : Mint × Mark) : (markPosition ts P m).total f = P.total f := by
  unfold markPosition
  rcases hv : P.get m.1 with - | v
  · rfl
  · have hset : ∀ u : PositionView, u.holding = v.holding →
        (P.set m.1 u).total f = P.total f := by
      intro u hu
      rw [Dict.total_set_old f u hv, hf u v hu]
      ring
    simp only
    split_ifs
    · rfl
    · exact hset _ rfl

lemma marks_total {f : PositionView → ℤ}
    (hf : ∀ u v : PositionView, u.holding = v.holding → f u = f v) (ts : ℤ)
    (marks : List (Mint × Mark)) (P : Dict Mint PositionView) :
    (marks.foldl (markPosition ts) P).total f = P.total f := by
  induction marks generalizing P with
  | nil => rfl
  | cons m ms ih => exact (ih _).trans (markPosition_total hf ts m)

/-! ### One batch -/

section Batch

variable {s : LedgerState}

lemma openBasis_congr {s' : LedgerState} (h : s'.positions = s.positions) :
    openBasis s' = openBasis s := by
  unfold openBasis
  rw [h]

/-- A row that touches neither cash nor positions and books nothing. -/
lemma balanced_aside {e : Event} (h : e.payload.isTrade = false) : Balanced s [e] := by
  obtain ⟨hp, hc⟩ := handle_aside s e.ts h
  unfold Balanced
  rw [replay_cons, replay_nil, openBasis_congr (s := s) (by rw [reduce_positions, hp]),
    reduce_cash, hc]
  rcases hpay : e.payload <;>
    simp [hpay, Payload.isTrade, slicesRealized, sliceOf, closesRealized, closeRealized,
      rejectionFees, rejectionFee] at h ⊢

lemma balanced_placed {e : Event} {p : OrderPlaced} (h : e.payload = .orderPlaced p) :
    Balanced s [e] := by
  simp [Balanced, h, reduce, handle, slicesRealized, sliceOf, closesRealized, closeRealized,
    rejectionFees, rejectionFee, openBasis]

lemma balanced_rejected {e : Event} {p : OrderRejected} (h : e.payload = .orderRejected p) :
    Balanced s [e] := by
  simp [Balanced, h, reduce, handle, onRejected, slicesRealized, sliceOf, closesRealized,
    closeRealized, rejectionFees, rejectionFee, openBasis]
  ring

lemma balanced_marked {e : Event} {p : MarkToMarket} (h : e.payload = .markToMarket p) :
    Balanced s [e] := by
  have hb : openBasis (reduce s e) = openBasis s := by
    unfold openBasis
    rw [reduce_positions, h, handle, onMtm_positions]
    refine marks_total (fun a b hab => ?_) _ _ _
    simp only [PositionView.holding, Prod.mk.injEq] at hab
    rw [hab.1, hab.2.1]
  unfold Balanced
  rw [replay_cons, replay_nil, hb]
  simp [h, handle, slicesRealized, sliceOf, closesRealized, closeRealized, rejectionFees,
    rejectionFee]

/-- The debit of an opening fill is the basis of the position it opens. -/
lemma balanced_opened {e₁ e₂ : Event} {f : FillRecorded} {o : PositionOpened}
    (h₁ : e₁.payload = .fillRecorded f) (h₂ : e₂.payload = .positionOpened o)
    (hm : f.mint ≠ []) (hn : s.positions.get f.mint = none) (hu : 0 < f.filledUnits)
    (ho : o.mint = f.mint) (hou : o.tokenUnits = f.filledUnits)
    (hob : o.costBasisLamports = -f.cashDeltaLamports) : Balanced s [e₁, e₂] := by
  have hp₁ : (reduce s e₁).positions = s.positions := by
    rw [reduce_positions, h₁, handle, onFill_positions_none s hn]
  have hp₂ : (reduce (reduce s e₁) e₂).positions = s.positions.set o.mint (openedView o) := by
    rw [reduce_positions, h₂, handle, onPositionOpened_positions _ (ho ▸ hm), hp₁]
  have hb : openBasis (reduce (reduce s e₁) e₂) = openBasis s - f.cashDeltaLamports := by
    unfold openBasis
    rw [hp₂, Dict.total_set_new _ _ (by rw [ho, hn])]
    simp only [openedView, hou, hu, if_true, hob]
    ring
  unfold Balanced
  rw [replay_cons, replay_cons, replay_nil, hb]
  simp [h₁, h₂, handle, slicesRealized, sliceOf, closesRealized, closeRealized, rejectionFees,
    rejectionFee, hn]

/-- An adding fill debits the cash by what it adds to the basis. -/
lemma balanced_added {e : Event} {f : FillRecorded} {v : PositionView}
    (h : e.payload = .fillRecorded f) (hb : f.side = .buy)
    (hv : s.positions.get f.mint = some v) (hh : 0 < v.tokenUnits) (hu : 0 < f.filledUnits)
    (hc : f.cashDeltaLamports ≤ 0) : Balanced s [e] := by
  have hbasis : openBasis (reduce s e) = openBasis s - f.cashDeltaLamports := by
    unfold openBasis
    rw [reduce_positions, h, handle, onFill_positions_buy s hv hb, Dict.total_set_old _ _ hv]
    have hpos : 0 < v.tokenUnits + f.filledUnits := by omega
    simp only [buyInto, hh, hpos, if_true, min_eq_left hc]
    ring
  unfold Balanced
  rw [replay_cons, replay_nil, hbasis]
  simp [h, handle, slicesRealized, sliceOf, closesRealized, closeRealized, rejectionFees,
    rejectionFee, hv, hb]

/-- A partial sale: the proceeds are the part of the basis it takes and the slice it realizes. -/
lemma balanced_reduced {e : Event} {f : FillRecorded} {v : PositionView}
    (h : e.payload = .fillRecorded f) (hs : f.side = .sell)
    (hv : s.positions.get f.mint = some v) (hu : 0 < f.filledUnits)
    (hl : f.filledUnits < v.tokenUnits) : Balanced s [e] := by
  have hh : 0 < v.tokenUnits := by omega
  have hr : 0 < v.tokenUnits - f.filledUnits := by omega
  have hbasis : openBasis (reduce s e) = openBasis s - basisReduction v f.filledUnits := by
    unfold openBasis
    rw [reduce_positions, h, handle, onFill_positions_sell s hv hs hh hu,
      Dict.total_set_old _ _ hv]
    have hb := sellFrom_basis v f
    have hun : (sellFrom v f).tokenUnits = v.tokenUnits - f.filledUnits := rfl
    simp only [hun, hh, hr, if_true]
    linarith
  unfold Balanced
  rw [replay_cons, replay_nil, hbasis]
  simp only [reduce_cash, h, handle, onFill_cash, slicesRealized, sliceOf, hv, hs, hh, hu,
    and_self, if_true, sliceRealized, hr, closesRealized, closeRealized, rejectionFees,
    rejectionFee, List.map_cons, List.map_nil, List.sum_cons, List.sum_nil]
  ring

/-- A full sale: the fold takes the whole basis and books no slice; the closing row books the
proceeds less that basis. -/
lemma balanced_closed {e₁ e₂ : Event} {f : FillRecorded} {v : PositionView} {c : PositionClosed}
    (h₁ : e₁.payload = .fillRecorded f) (h₂ : e₂.payload = .positionClosed c)
    (hs : f.side = .sell) (hv : s.positions.get f.mint = some v) (hu : 0 < f.filledUnits)
    (hl : f.filledUnits = v.tokenUnits) (hc : c.mint = f.mint)
    (hr : c.realizedPnlLamports = f.cashDeltaLamports - v.costBasisLamports) :
    Balanced s [e₁, e₂] := by
  have hh : 0 < v.tokenUnits := hl ▸ hu
  have hp₁ : (reduce s e₁).positions = s.positions.set f.mint (sellFrom v f) := by
    rw [reduce_positions, h₁, handle, onFill_positions_sell s hv hs hh hu]
  have hg : (reduce s e₁).positions.get f.mint = some (sellFrom v f) := by
    rw [hp₁, Dict.get_set_self]
  have hun : (sellFrom v f).tokenUnits = 0 := by
    simp [sellFrom, hl]
  have hbasis : openBasis (reduce (reduce s e₁) e₂) = openBasis s - v.costBasisLamports := by
    unfold openBasis
    rw [reduce_positions, h₂, handle, onPositionClosed_positions, hc, Dict.total_erase _ hg, hp₁,
      Dict.total_set_old _ _ hv]
    simp [hun, hh]
  unfold Balanced
  rw [replay_cons, replay_cons, replay_nil, hbasis]
  simp only [reduce_cash, h₁, h₂, handle, onFill_cash, onPositionClosed_cash, slicesRealized,
    sliceOf, hv, hs, hh, and_self, if_true, sliceRealized, hl, sub_self, lt_irrefl, if_false,
    closesRealized, closeRealized, rejectionFees, rejectionFee, List.map_cons, List.map_nil,
    List.sum_cons, List.sum_nil, hr]
  ring

lemma balanced_asides {es : List Event} (h : ∀ e ∈ es, e.payload.isTrade = false) :
    Balanced s es := by
  induction es generalizing s with
  | nil => simp [Balanced, slicesRealized, closesRealized, rejectionFees]
  | cons e es ih =>
    have he : Balanced s [e] := balanced_aside (h e (by simp))
    exact he.append (ih fun x hx => h x (List.mem_cons_of_mem _ hx))

/-- **One batch.** Every batch of the trading path is balanced where positions hold units. -/
theorem BatchOk.balanced {es : List Event} (hh : AllHeld s.positions)
    (h : BatchOk s.positions (es.map (·.payload))) : Balanced s es := by
  generalize hp : es.map (·.payload) = ps at h
  cases h with
  | aside p ha =>
    obtain ⟨e, rfl, rfl⟩ := List.map_eq_singleton_iff.mp hp
    exact balanced_aside ha
  | rejected p =>
    obtain ⟨e, rfl, he⟩ := List.map_eq_singleton_iff.mp hp
    exact balanced_rejected he
  | placed p =>
    obtain ⟨e, rfl, he⟩ := List.map_eq_singleton_iff.mp hp
    exact balanced_placed he
  | consumed a p =>
    obtain ⟨e, es, rfl, he, hes⟩ := List.map_eq_cons_iff.mp hp
    obtain ⟨e', rfl, he'⟩ := List.map_eq_singleton_iff.mp hes
    have h₁ : Balanced s [e] := balanced_aside (by rw [he]; rfl)
    exact h₁.append (balanced_placed he')
  | marked p =>
    obtain ⟨e, rfl, he⟩ := List.map_eq_singleton_iff.mp hp
    exact balanced_marked he
  | opened f o hb hm hn hu hc ho hou hob =>
    obtain ⟨e, es, rfl, he, hes⟩ := List.map_eq_cons_iff.mp hp
    obtain ⟨e', rfl, he'⟩ := List.map_eq_singleton_iff.mp hes
    exact balanced_opened he he' hm hn hu ho hou hob
  | added f v hb hv hu hc =>
    obtain ⟨e, rfl, he⟩ := List.map_eq_singleton_iff.mp hp
    exact balanced_added he hb hv (hh _ v hv) hu hc
  | reduced f v hs hv hu hl =>
    obtain ⟨e, rfl, he⟩ := List.map_eq_singleton_iff.mp hp
    exact balanced_reduced he hs hv hu hl
  | closed f v c rest hs hv hu hl hc hr ha =>
    obtain ⟨e, es, rfl, he, hes⟩ := List.map_eq_cons_iff.mp hp
    obtain ⟨e', rs, rfl, he', hrs⟩ := List.map_eq_cons_iff.mp hes
    have hrest : rs.map (·.payload) = rest := hrs
    have h₁ : Balanced s [e, e'] := balanced_closed he he' hs hv hu hl hc hr
    refine h₁.append (balanced_asides fun x hx => ?_)
    exact ha _ (hrest ▸ List.mem_map_of_mem hx)

end Batch

end PumpGrok
