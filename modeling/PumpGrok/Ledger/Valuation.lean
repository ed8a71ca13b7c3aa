import PumpGrok.Ledger.Batches

/-!
Two valuations of the open positions. A mark row counts a position it does not price at its last
mark, which is zero until there is one; the fold counts it at its cost basis until there is one.
They differ by the basis of the positions never marked.
-/

namespace PumpGrok

/-- Value less cost basis over the open positions. -/
def unrealizedPnlLamports (state : LedgerState) : ℤ :=
  state.positions.total fun p =>
    if 0 < p.tokenUnits then positionValueLamports p - p.costBasisLamports else 0

/-- The sum of a measure over the open positions. -/
def openSum (P : Dict Mint PositionView) (f : Mint × PositionView → ℤ) : ℤ :=
  (P.entries.map fun x => if 0 < x.2.tokenUnits then f x else 0).sum

/-- What a mark row counts a position at: the price it carries, else the last mark. -/
def statedValue (prices : List (Mint × Mark)) (x : Mint × PositionView) : ℤ :=
  ((AssocList.get x.1 prices).map (·.mtmLamports)).getD x.2.lastMtmLamports

/-- The cost basis of the open positions that a row does not price and that were never marked. -/
def unvaluedBasis (P : Dict Mint PositionView) (priced : List Mint) : ℤ :=
  openSum P fun x => if x.1 ∉ priced ∧ x.2.lastMtmTs = none then x.2.costBasisLamports else 0

/-- The figures of a mark row, next to the state it was computed from. -/
structure MarkToMarket.States (p : MarkToMarket) (state : LedgerState) : Prop where
  equity : p.equityLamports = state.cashLamports + openSum state.positions (statedValue p.prices)
  unrealized : p.unrealizedLamports =
    openSum state.positions fun x => statedValue p.prices x - x.2.costBasisLamports

/-! ### Positions of a fold -/

/-- No position is frozen, and one never marked has no mark. -/
def Plain (P : Dict Mint PositionView) : Prop :=
  ∀ m v, P.get m = some v → v.mtmFrozen = false ∧ (v.lastMtmTs = none → v.lastMtmLamports = 0)

section Plain

variable {P : Dict Mint PositionView}

lemma Plain.set (h : Plain P) {m : Mint} {v : PositionView} (hf : v.mtmFrozen = false)
    (hv : v.lastMtmTs = none → v.lastMtmLamports = 0) : Plain (P.set m v) := by
  intro k u hu
  rw [Dict.get_set] at hu
  split_ifs at hu with hk
  · rw [← Option.some.inj hu]
    exact ⟨hf, hv⟩
  · exact h k u hu

lemma Plain.markPosition (h : Plain P) (ts : ℤ) (m : Mint × Mark) :
    Plain (markPosition ts P m) := by
  unfold PumpGrok.markPosition
  rcases hv : P.get m.1 with - | v
  · exact h
  · simp only
    split_ifs with hf
    · exact h
    · exact h.set (by simpa using hf) (by simp)

/-- A sale of a position never marked leaves it without a mark. -/
lemma sellFrom_unmarked {v : PositionView} (p : FillRecorded) (h : v.lastMtmLamports = 0) :
    (sellFrom v p).lastMtmLamports = 0 := by
  have hshare : v.lastMtmLamports * (v.tokenUnits - p.filledUnits) / v.tokenUnits = 0 := by simp [h]
  simp only [sellFrom, hshare]
  exact min_eq_left (le_max_right _ _)

lemma plain_handle {s : LedgerState} (h : Plain s.positions) (ts : ℤ) (p : Payload) :
    Plain (handle s ts p).positions := by
  cases p with
  | positionOpened p =>
    simp only [handle]
    by_cases hm : p.mint = []
    · simpa [onPositionOpened, hm] using h
    · rw [onPositionOpened_positions s hm]
      exact h.set rfl fun _ => rfl
  | positionClosed p =>
    simp only [handle, onPositionClosed_positions]
    intro k u hu
    rw [Dict.get_erase] at hu
    split_ifs at hu
    exact h k u hu
  | fillRecorded p =>
    simp only [handle]
    unfold onFill
    rw [trackPeak_positions]
    rcases hv : s.positions.get p.mint with - | v
    · exact h
    · obtain ⟨hf, hu⟩ := h p.mint v hv
      simp only
      split_ifs
      · exact h.set hf hu
      · exact h.set hf fun hn => sellFrom_unmarked p (hu hn)
      · exact h
  | markToMarket p =>
    simp only [handle, onMtm_positions]
    generalize s.positions = P at h
    induction p.prices generalizing P with
    | nil => exact h
    | cons m ms ih => exact ih _ (h.markPosition ts m)
  | _ => exact h

lemma plain_positionsOf (es : List Event) : Plain (positionsOf es) := by
  have hrun : ∀ (es : List Event) (s : LedgerState), Plain s.positions →
      Plain (replay s es).positions := by
    intro es
    induction es with
    | nil => exact fun s h => h
    | cons e es ih => exact fun s h => ih _ (plain_handle h e.ts e.payload)
  refine hrun es _ fun m v hv => ?_
  simp [initialState] at hv

end Plain

/-! ### Sums over the open positions -/

section Sums

variable {P : Dict Mint PositionView} {f g : Mint × PositionView → ℤ}

lemma openSum_congr (h : ∀ x ∈ P.entries, 0 < x.2.tokenUnits → f x = g x) :
    openSum P f = openSum P g := by
  refine congrArg List.sum (List.map_congr_left fun x hx => ?_)
  split_ifs with hu
  · exact h x hx hu
  · rfl

lemma openSum_add (f g : Mint × PositionView → ℤ) :
    openSum P (fun x => f x + g x) = openSum P f + openSum P g := by
  unfold openSum
  rw [← List.sum_map_add]
  refine congrArg List.sum (List.map_congr_left fun x _ => ?_)
  split_ifs <;> simp

lemma openSum_sub (f g : Mint × PositionView → ℤ) :
    openSum P (fun x => f x - g x) = openSum P f - openSum P g := by
  have hadd : openSum P (fun x => f x - g x + g x) = openSum P (fun x => f x - g x) + openSum P g :=
    openSum_add _ _
  simp only [sub_add_cancel] at hadd
  linarith

/-- Two measures that differ at one open position. -/
lemma openSum_differ {m : Mint} {v : PositionView} (h : P.get m = some v) (hv : 0 < v.tokenUnits)
    (hfg : ∀ x ∈ P.entries, x.1 ≠ m → 0 < x.2.tokenUnits → f x = g x) :
    openSum P f = openSum P g - g (m, v) + f (m, v) := by
  have := AssocList.sum_differ (f := fun x => if 0 < x.2.tokenUnits then f x else 0)
    (g := fun x => if 0 < x.2.tokenUnits then g x else 0) P.nodup h fun x hx hm => by
      split_ifs with hu
      · exact hfg x hx hm hu
      · rfl
  simpa [openSum, hv] using this

end Sums

/-! ### Folding a mark row -/

/-- A position after a mark row. -/
def markedView (ts : ℤ) (prices : List (Mint × Mark)) (x : Mint × PositionView) : PositionView :=
  match AssocList.get x.1 prices with
  | none => x.2
  | some k =>
    { x.2 with
      lastMtmVenueFeeLamports := k.venueFeeLamports
      lastMtmLamports := k.mtmLamports
      lastMtmTs := some (k.ts.getD ts)
      pricePeak := max x.2.pricePeak k.spot }

lemma markedView_units (ts : ℤ) (prices : List (Mint × Mark)) (x : Mint × PositionView) :
    (markedView ts prices x).tokenUnits = x.2.tokenUnits := by
  unfold markedView
  split <;> rfl

lemma markedView_basis (ts : ℤ) (prices : List (Mint × Mark)) (x : Mint × PositionView) :
    (markedView ts prices x).costBasisLamports = x.2.costBasisLamports := by
  unfold markedView
  split <;> rfl

lemma markPosition_entries {P : Dict Mint PositionView} (hp : Plain P) (ts : ℤ) (m : Mint × Mark) :
    (markPosition ts P m).entries = P.entries.map fun x => (x.1, markedView ts [m] x) := by
  have hother : ∀ x : Mint × PositionView, x.1 ≠ m.1 → (x.1, markedView ts [m] x) = x := by
    intro x hx
    simp [markedView, AssocList.get, Ne.symm hx]
  unfold markPosition
  rcases hv : P.get m.1 with - | v
  · have hn : ∀ x ∈ P.entries, (x.1, markedView ts [m] x) = x := by
      rintro ⟨k, u⟩ hx
      refine hother _ fun hk => ?_
      rw [Dict.mem_entries_iff] at hx
      rw [show k = m.1 from hk, hv] at hx
      simp at hx
    rw [List.map_congr_left hn, List.map_id']
  · simp only [(hp m.1 v hv).1, Bool.false_eq_true, if_false]
    rw [Dict.entries_set_old _ hv]
    refine List.map_congr_left fun x hx => ?_
    split_ifs with hk
    · have hxv : x = (m.1, v) := by
        refine Prod.ext hk ?_
        have := (P.mem_entries_iff x.1 x.2).mp hx
        rw [hk, hv] at this
        exact (Option.some.inj this).symm
      simp [hxv, markedView, AssocList.get, (hp m.1 v hv).1]
    · exact (hother x hk).symm

/-- A mark row changes each priced position by its own price. -/
lemma marks_entries {prices : List (Mint × Mark)} (hn : (prices.map Prod.fst).Nodup) (ts : ℤ)
    {P : Dict Mint PositionView} (hp : Plain P) :
    (prices.foldl (markPosition ts) P).entries =
      P.entries.map fun x => (x.1, markedView ts prices x) := by
  induction prices generalizing P with
  | nil =>
    have : ∀ x ∈ P.entries, (x.1, markedView ts [] x) = x := fun x _ => rfl
    rw [List.foldl_nil, List.map_congr_left this, List.map_id']
  | cons m ms ih =>
    rw [List.map_cons, List.nodup_cons] at hn
    rw [List.foldl_cons, ih hn.2 (hp.markPosition ts m), markPosition_entries hp, List.map_map]
    refine List.map_congr_left fun x _ => ?_
    simp only [Function.comp]
    by_cases hk : m.1 = x.1
    · have hms : AssocList.get x.1 ms = none := by
        rw [AssocList.get_eq_none_iff, ← hk]
        exact hn.1
      simp [markedView, AssocList.get, hk, hms]
    · simp [markedView, AssocList.get, hk]

lemma total_eq_openSum (P : Dict Mint PositionView) (f : PositionView → ℤ) :
    (P.total fun p => if 0 < p.tokenUnits then f p else 0) = openSum P fun x => f x.2 := rfl

/-- The open positions after a mark row, by a measure. -/
lemma openSum_marked {prices : List (Mint × Mark)} (hn : (prices.map Prod.fst).Nodup) (ts : ℤ)
    {P : Dict Mint PositionView} (hp : Plain P) (f : PositionView → ℤ) :
    (openSum (prices.foldl (markPosition ts) P) fun x => f x.2) =
      openSum P fun x => f (markedView ts prices x) := by
  unfold openSum
  rw [marks_entries hn ts hp, List.map_map]
  refine congrArg List.sum (List.map_congr_left fun x _ => ?_)
  simp only [Function.comp, markedView_units]

/-- What the fold counts a position at after a mark row, next to what the row states. -/
lemma markedView_value (ts : ℤ) (prices : List (Mint × Mark)) {x : Mint × PositionView}
    (hx : x.2.lastMtmTs = none → x.2.lastMtmLamports = 0) :
    positionValueLamports (markedView ts prices x) = statedValue prices x +
      if x.1 ∉ prices.map Prod.fst ∧ x.2.lastMtmTs = none then x.2.costBasisLamports else 0 := by
  rcases hg : AssocList.get x.1 prices with - | k
  · have hnot := AssocList.get_eq_none_iff.mp hg
    by_cases hts : x.2.lastMtmTs = none
    · simp [positionValueLamports, markedView, statedValue, hg, hts, hnot, hx hts]
    · have hsome : x.2.lastMtmTs.isSome = true := Option.isSome_iff_ne_none.mpr hts
      simp [positionValueLamports, markedView, statedValue, hg, hts, hsome]
  · have hin : x.1 ∈ prices.map Prod.fst := List.mem_map_of_mem (AssocList.mem_of_get hg)
    rw [if_neg fun h => h.1 hin]
    simp [positionValueLamports, markedView, statedValue, hg]

/-- **The fold after a mark row** values the book at what the row states and the basis of the
positions never marked. -/
theorem states_folded {p : MarkToMarket} {state : LedgerState} (h : p.States state)
    (hn : (p.prices.map Prod.fst).Nodup) (hp : Plain state.positions) (ts : ℤ) :
    equityLamports (onMtm state ts p) =
        p.equityLamports + unvaluedBasis state.positions (p.prices.map Prod.fst) ∧
      unrealizedPnlLamports (onMtm state ts p) =
        p.unrealizedLamports + unvaluedBasis state.positions (p.prices.map Prod.fst) := by
  have hplain : ∀ x ∈ state.positions.entries, x.2.lastMtmTs = none → x.2.lastMtmLamports = 0 :=
    fun x hx => (hp x.1 x.2 ((Dict.mem_entries_iff _ _ _).mp hx)).2
  have hvalue :
      openSum state.positions (fun x => positionValueLamports (markedView ts p.prices x)) =
      openSum state.positions (statedValue p.prices) +
        unvaluedBasis state.positions (p.prices.map Prod.fst) := by
    unfold unvaluedBasis
    rw [← openSum_add]
    exact openSum_congr fun x hx _ => markedView_value ts p.prices (hplain x hx)
  constructor
  · rw [equityLamports, total_eq_openSum, onMtm_cash, onMtm_positions, openSum_marked hn ts hp,
      hvalue, h.equity]
    ring
  · rw [unrealizedPnlLamports,
      total_eq_openSum _ fun v => positionValueLamports v - v.costBasisLamports,
      onMtm_positions,
      openSum_marked hn ts hp fun v => positionValueLamports v - v.costBasisLamports]
    simp only [markedView_basis]
    rw [openSum_sub, hvalue, h.unrealized, openSum_sub]
    ring

end PumpGrok
