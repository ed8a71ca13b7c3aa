import PumpGrok.Desk.Books
import PumpGrok.Ledger.Days

/-!
Three readings of a day's realized profit: the ledger view behind the daily report, the
`portfolio.pnl` tool, and the counter of the fold. The first two sum the closing rows stamped on
the day; the counter also books the slices of partial sales, and what it books belongs to the
rollover before it.
-/

namespace PumpGrok

def dayStart (day : ℤ) : ℤ := day * 86400000000

def dayNext (day : ℤ) : ℤ := dayStart (day + 1)

lemma utcDay_eq_iff {t day : ℤ} : utcDay t = day ↔ dayStart day ≤ t ∧ t < dayNext day := by
  unfold utcDay dayNext dayStart
  omega

/-! ### The view -/

namespace Views

def closedInRange (events : List Event) (since stop : ℤ) : List PositionClosed :=
  events.filterMap fun e => match e.payload with
    | .positionClosed p => if since ≤ e.ts ∧ e.ts < stop then some p else none
    | _ => none

def realizedPnlLamports (events : List Event) (since stop : ℤ) : ℤ :=
  ((closedInRange events since stop).map (·.realizedPnlLamports)).sum

def drawdownFraction (state : LedgerState) : ℚ :=
  if state.peakEquityLamports ≤ 0 then 0
  else (state.peakEquityLamports - PumpGrok.equityLamports state : ℤ) / state.peakEquityLamports

def dailyPnlFraction (state : LedgerState) : ℚ :=
  if state.dayStartEquityLamports ≤ 0 then 0
  else (PumpGrok.equityLamports state - state.dayStartEquityLamports : ℤ) /
    state.dayStartEquityLamports

end Views

/-! ### The tool -/

inductive PnlWindow where
  | day
  | week
  | all
  deriving DecidableEq

/-- The start of the day or of the week, from Monday, that holds an instant. -/
def windowStart (asOf : ℤ) : PnlWindow → Option ℤ
  | .all => none
  | .day => some (dayStart (utcDay asOf))
  | .week => some (dayStart (utcDay asOf - (utcDay asOf + 3) % 7))

structure PnlTotals where
  realised : ℤ := 0
  fees : ℤ := 0
  trades : ℕ := 0
  closed : ℕ := 0
  wins : ℕ := 0

def PnlTotals.count (t : PnlTotals) (e : Event) : PnlTotals :=
  match e.payload with
  | .fillRecorded p =>
    { t with
      trades := t.trades + 1
      fees := t.fees + p.venueFeeLamports + p.networkCostLamports }
  | .positionClosed p =>
    { t with
      closed := t.closed + 1
      realised := t.realised + p.realizedPnlLamports
      wins := t.wins + if 0 < p.realizedPnlLamports then 1 else 0 }
  | _ => t

/-- The rows of a window, to an instant inclusive. -/
def inWindow (start : Option ℤ) (asOf : ℤ) (e : Event) : Bool :=
  !(decide (asOf < e.ts) || start.any fun t => e.ts < t)

structure PnlOut where
  realisedLamports : ℤ
  unrealisedLamports : ℤ
  feesLamports : ℤ
  dailyLossFraction : ℚ
  dayStartEquityLamports : ℤ
  peakEquityLamports : ℤ
  drawdownFraction : ℚ
  trades : ℕ
  closedTrades : ℕ
  winRate : Option ℚ

/-- The bounds of the output model. -/
def PnlOut.valid (o : PnlOut) : Bool :=
  0 ≤ o.feesLamports && 0 ≤ o.dailyLossFraction && 0 ≤ o.dayStartEquityLamports &&
    0 ≤ o.peakEquityLamports && 0 ≤ o.drawdownFraction && o.drawdownFraction ≤ 1

/-- `portfolio.pnl` over a ledger folded from a first state; `none` where the output is refused. -/
def runPnl (genesis : LedgerState) (events : List Event) (window : PnlWindow) (asOf : ℤ) :
    Option PnlOut :=
  let totals := (events.filter (inWindow (windowStart asOf window) asOf)).foldl PnlTotals.count {}
  let state := replay genesis events
  let out : PnlOut :=
    { realisedLamports := totals.realised
      unrealisedLamports := 0
      feesLamports := totals.fees
      dailyLossFraction := max (-Views.dailyPnlFraction state) 0
      dayStartEquityLamports := state.dayStartEquityLamports
      peakEquityLamports := max state.peakEquityLamports (equityLamports state)
      drawdownFraction := max (Views.drawdownFraction state) 0
      trades := totals.trades
      closedTrades := totals.closed
      winRate := if totals.closed = 0 then none else some (totals.wins / totals.closed) }
  if out.valid then some out else none

/-! ### The readings of a day -/

/-- The rows of the closing days up to a day: those before the first row stamped later. -/
def upTo (day : ℤ) (events : List Event) : List Event :=
  events.takeWhile fun e => utcDay e.ts ≤ day

/-- The counter of the fold at the end of a day, before its rollover. -/
def realizedAtEnd (genesis : LedgerState) (events : List Event) (day : ℤ) : ℤ :=
  (replay genesis (upTo day events)).counters.realizedTodayLamports

/-- The report, the tool as of the last instant of the day, and the fold say the same. -/
structure RealizedAgree (genesis : LedgerState) (events : List Event) (day : ℤ) : Prop where
  report : Views.realizedPnlLamports events (dayStart day) (dayNext day) =
    realizedAtEnd genesis events day
  tool : ∀ out, runPnl genesis events .day (dayNext day - 1) = some out →
    out.realisedLamports = realizedAtEnd genesis events day

/-- The closing rows stamped on a day, and those stamped on others. -/
def closesOn (day : ℤ) (es : List Event) : ℤ :=
  closesRealized (es.filter fun e => utcDay e.ts = day)

def closesOff (day : ℤ) (es : List Event) : ℤ :=
  closesRealized (es.filter fun e => ¬ utcDay e.ts = day)

lemma closesRealized_append (es fs : List Event) :
    closesRealized (es ++ fs) = closesRealized es + closesRealized fs := by
  simp [closesRealized]

lemma closesOn_append (day : ℤ) (es fs : List Event) :
    closesOn day (es ++ fs) = closesOn day es + closesOn day fs := by
  rw [closesOn, List.filter_append, closesRealized_append]
  rfl

lemma closes_split (day : ℤ) (es : List Event) :
    closesRealized es = closesOn day es + closesOff day es := by
  induction es with
  | nil => rfl
  | cons e es ih =>
    have hcons :
        ∀ x : Event, ∀ xs, closesRealized (x :: xs) = closeRealized x + closesRealized xs :=
      fun _ _ => rfl
    rw [hcons, ih, closesOn, closesOn, closesOff, closesOff, List.filter_cons, List.filter_cons]
    by_cases h : utcDay e.ts = day
    · simp only [h, decide_true, not_true, decide_false, if_true, Bool.false_eq_true, if_false,
        hcons]
      ring
    · simp only [h, decide_false, not_false_eq_true, decide_true, if_true, Bool.false_eq_true,
        if_false, hcons]
      ring

/-- The view of a day sums its closing rows. -/
lemma realizedPnl_day (events : List Event) (day : ℤ) :
    Views.realizedPnlLamports events (dayStart day) (dayNext day) = closesOn day events := by
  induction events with
  | nil => rfl
  | cons e es ih =>
    unfold Views.realizedPnlLamports Views.closedInRange closesOn closesRealized at ih ⊢
    rw [List.filterMap_cons, List.filter_cons]
    by_cases hday : utcDay e.ts = day
    · have hrange := utcDay_eq_iff.mp hday
      rw [if_pos (decide_eq_true hday), List.map_cons, List.sum_cons, ← ih]
      cases hp : e.payload <;> simp [closeRealized, hp, hrange]
    · have hrange : ¬ (dayStart day ≤ e.ts ∧ e.ts < dayNext day) :=
        fun h => hday (utcDay_eq_iff.mpr h)
      rw [if_neg (by simpa using hday), ← ih]
      cases e.payload <;> simp only [if_neg hrange]

lemma count_realised (es : List Event) (t : PnlTotals) :
    (es.foldl PnlTotals.count t).realised = t.realised + closesRealized es := by
  induction es generalizing t with
  | nil => simp [closesRealized]
  | cons e es ih =>
    have hone : (t.count e).realised = t.realised + closeRealized e := by
      unfold PnlTotals.count closeRealized
      cases e.payload <;> simp
    rw [List.foldl_cons, ih, hone]
    simp only [closesRealized, List.map_cons, List.sum_cons]
    ring

/-- So does the tool, as of the last instant of the day. -/
lemma runPnl_day {genesis : LedgerState} {events : List Event} {day : ℤ} {out : PnlOut}
    (h : runPnl genesis events .day (dayNext day - 1) = some out) :
    out.realisedLamports = closesOn day events := by
  have hday : utcDay (dayNext day - 1) = day :=
    utcDay_eq_iff.mpr ⟨by unfold dayNext dayStart; omega, by omega⟩
  have hwindow : inWindow (windowStart (dayNext day - 1) .day) (dayNext day - 1) =
      fun e => decide (utcDay e.ts = day) := by
    funext e
    have hiff : (dayStart day ≤ e.ts ∧ e.ts ≤ dayNext day - 1) ↔ utcDay e.ts = day := by
      rw [utcDay_eq_iff]
      omega
    rw [← Bool.decide_congr hiff, inWindow, windowStart, hday]
    by_cases h₁ : dayNext day - 1 < e.ts
    · simp [h₁, not_le.mpr h₁]
    · by_cases h₂ : e.ts < dayStart day
      · simp [h₂, not_le.mpr h₂]
      · simp [h₁, h₂, not_lt.mp h₁, not_lt.mp h₂]
  unfold runPnl at h
  rw [hwindow] at h
  dsimp only at h
  obtain ⟨-, hout⟩ := Option.ite_none_right_eq_some.mp h
  rw [← Option.some.inj hout]
  exact (count_realised _ {}).trans (zero_add _)

/-! ### The counter -/

lemma amount_realized (s : LedgerState) (e : Event) :
    amount s e.payload .realized = sliceOf s e + closeRealized e := by
  cases hp : e.payload with
  | fillRecorded p =>
    simp only [amount, fillRealized, sliceOf, closeRealized, hp, add_zero]
    rcases s.positions.get p.mint with - | v
    · rfl
    · cases hs : p.side <;> simp
  | _ => simp [amount, sliceOf, closeRealized, hp]

/-- Since a rollover the counter books slices and closing rows. -/
lemma realized_since (s : LedgerState) {es : List Event}
    (hr : ∀ e ∈ es, e.payload.isRollover = false) :
    (replay s es).counters.of .realized =
      s.counters.of .realized + slicesRealized s es + closesRealized es := by
  induction es generalizing s with
  | nil => simp [slicesRealized, closesRealized]
  | cons e es ih =>
    have hone : (reduce s e).counters.of .realized =
        s.counters.of .realized + (sliceOf s e + closeRealized e) := by
      rw [reduce_counters, handle_counter, hr e List.mem_cons_self, ← amount_realized]
      rfl
    rw [replay_cons, ih (reduce s e) fun x hx => hr x (List.mem_cons_of_mem _ hx), hone]
    simp only [slicesRealized, closesRealized, List.map_cons, List.sum_cons]
    ring

lemma counter_reset (s : LedgerState) (h₀ : s.counters = {}) (es : List Event) :
    (replay s (throughRollover es)).counters.of .realized = 0 := by
  rcases throughRollover_cases es with hnil | ⟨front, e, heq, hroll⟩
  · rw [hnil, replay_nil, h₀]
    rfl
  · rw [heq, replay_append, replay_cons, replay_nil, reduce_counters, handle_counter, hroll]
    rfl

/-- The slices of partial sales booked since the rollover a day ends in. -/
def slicesBooked (genesis : LedgerState) (events : List Event) (day : ℤ) : ℤ :=
  slicesRealized (replay genesis (throughRollover (upTo day events)))
    (sinceRollover (upTo day events))

/-- The closing rows of other days booked with them. -/
def straysBooked (events : List Event) (day : ℤ) : ℤ :=
  closesOff day (sinceRollover (upTo day events))

/-- The closing rows of the day that are folded before that rollover, or after a later row. -/
def closesMissed (events : List Event) (day : ℤ) : ℤ :=
  closesOn day (throughRollover (upTo day events)) +
    closesOn day (events.drop (upTo day events).length)

lemma realizedAtEnd_eq (genesis : LedgerState) (h₀ : genesis.counters = {}) (events : List Event)
    (day : ℤ) : realizedAtEnd genesis events day + closesMissed events day =
      closesOn day events + slicesBooked genesis events day + straysBooked events day := by
  have hsplit := through_append_since (upTo day events)
  have hevents : upTo day events ++ events.drop (upTo day events).length = events :=
    (List.prefix_iff_eq_append.mp (List.takeWhile_prefix _))
  have hsince := realized_since (replay genesis (throughRollover (upTo day events)))
    fun e (he : e ∈ sinceRollover (upTo day events)) => sinceRollover_not he
  rw [← replay_append, hsplit, counter_reset genesis h₀] at hsince
  have hday : closesOn day events = closesOn day (throughRollover (upTo day events)) +
      closesOn day (sinceRollover (upTo day events)) +
        closesOn day (events.drop (upTo day events).length) := by
    conv_lhs => rw [← hevents, closesOn_append]
    conv_lhs => rw [← hsplit, closesOn_append]
    rw [hsplit]
  have hread : realizedAtEnd genesis events day =
      (replay genesis (upTo day events)).counters.of .realized := rfl
  rw [hread, hsince, closes_split day (sinceRollover _), hday, closesMissed, slicesBooked,
    straysBooked]
  ring

/-- **When the readings agree.** Exactly when the slices of partial sales since the day's rollover,
with the closing rows of other days booked there, make up for the closing rows of the day that are
booked elsewhere. -/
theorem realized_agree_iff (e₀ day₀ : ℤ) (events : List Event) (day : ℤ) :
    RealizedAgree (initialState e₀ day₀) events day ↔
      slicesBooked (initialState e₀ day₀) events day + straysBooked events day =
        closesMissed events day := by
  have heq := realizedAtEnd_eq (initialState e₀ day₀) rfl events day
  have hview := realizedPnl_day events day
  constructor
  · rintro ⟨hreport, -⟩
    rw [hview] at hreport
    linarith
  · intro h
    have hfold : closesOn day events = realizedAtEnd (initialState e₀ day₀) events day := by
      linarith
    exact ⟨hview.trans hfold, fun out hout => (runPnl_day hout).trans hfold⟩

/-- A position sold in two slices: the first is in the counter alone. -/
theorem slice_not_reported :
    ¬ RealizedAgree (initialState 10000000000 0)
      (Sys.sampleAfter Sys.sampleTrades).store.read 0 := by
  rintro ⟨hreport, -⟩
  revert hreport
  decide +kernel

/-- Where the rows of a day follow its rollover and no others do, the readings agree exactly when
its slices sum to zero. -/
theorem realized_agree_onDay (e₀ day₀ : ℤ) {events : List Event} {day : ℤ}
    (h : OnDay (upTo day events) day)
    (hlast : ∀ e ∈ events.drop (upTo day events).length, utcDay e.ts ≠ day) :
    RealizedAgree (initialState e₀ day₀) events day ↔
      slicesBooked (initialState e₀ day₀) events day = 0 := by
  have hcounted : ∀ e : Event, closeRealized e ≠ 0 → e.payload.counts = true := by
    intro e he
    unfold closeRealized at he
    cases hp : e.payload <;> simp_all [Payload.counts]
  have hzero : ∀ es : List Event, (∀ e ∈ es, closeRealized e = 0) → closesRealized es = 0 := by
    intro es hes
    exact List.sum_eq_zero fun x hx => by
      obtain ⟨e, he, rfl⟩ := List.mem_map.mp hx
      exact hes e he
  have hstrays : straysBooked events day = 0 := hzero _ fun e he => by
    obtain ⟨hmem, hoff⟩ := List.mem_filter.mp he
    by_contra hne
    exact of_decide_eq_true hoff (h.2 e hmem (hcounted e hne))
  have hthrough : closesOn day (throughRollover (upTo day events)) = 0 := hzero _ fun e he => by
    obtain ⟨hmem, hon⟩ := List.mem_filter.mp he
    by_contra hne
    exact h.1 e hmem (hcounted e hne) (of_decide_eq_true hon)
  have hrest : closesOn day (events.drop (upTo day events).length) = 0 := hzero _ fun e he => by
    obtain ⟨hmem, hon⟩ := List.mem_filter.mp he
    exact absurd (of_decide_eq_true hon) (hlast e hmem)
  rw [realized_agree_iff, hstrays, closesMissed, hthrough, hrest, add_zero, add_zero]

end PumpGrok
