import PumpGrok.Desk.Books
import PumpGrok.Ledger.Days
import PumpGrok.Execution.Models

/-!
The equity of a backtest window, read three ways off the same rows: the net of the search, the
point after each fill, and the path the drawdown is taken from.

A fill moves cash before its position row lands. The path leaves out the state between the two,
which it knows by the kinds of the rows alone; in a ledger of whole batches that is the state
between a fill and the position row of its own settlement.
-/

namespace PumpGrok

/-- `PositionOpened` and `PositionClosed`. -/
def Payload.isSettlement : Payload → Bool
  | .positionOpened _ | .positionClosed _ => true
  | _ => false

namespace Backtest

/-- Cash, and each open position at its mark or else at cost. -/
def equityLamports (state : LedgerState) : ℤ :=
  state.positions.entries.foldl
    (fun total x =>
      if x.2.tokenUnits ≤ 0 then total
      else total + if x.2.lastMtmTs.isSome then x.2.lastMtmLamports else x.2.costBasisLamports)
    state.cashLamports

def netLamports (genesis : LedgerState) (rows : List Event) : ℤ :=
  equityLamports (replay genesis rows) - equityLamports genesis

/-- The points still to come, `pending` when a fill waits for its own. -/
def curveFrom (state : LedgerState) (pending : Bool) : List Event → List ℤ
  | [] => if pending then [equityLamports state] else []
  | row :: rows =>
    (if row.payload.isFill && pending then [equityLamports state] else []) ++
      curveFrom (reduce state row) (pending || row.payload.isFill) rows

/-- The equity after each fill, taken when the next fill begins or the window ends. -/
def windowCurve (genesis : LedgerState) (rows : List Event) : List ℤ := curveFrom genesis false rows

def pathFrom (state : LedgerState) (unsettled : Bool) : List Event → List ℤ
  | [] => if unsettled then [equityLamports state] else []
  | row :: rows =>
    -- a fill that no position row followed is settled as it stands
    (if unsettled && !row.payload.isSettlement then [equityLamports state] else []) ++
      if row.payload.isFill then pathFrom (reduce state row) true rows
      else equityLamports (reduce state row) :: pathFrom (reduce state row) false rows

/-- The equity before the first row and at each settled point. -/
def equityPath (genesis : LedgerState) (rows : List Event) : List ℤ :=
  equityLamports genesis :: pathFrom genesis false rows

/-! ### Metrics -/

structure MetricsReport where
  totalReturn : ℚ
  maxDrawdown : ℚ
  sharpeRatio : ℚ
  winRate : ℚ
  tradeCount : ℕ
  exposureLamports : ℤ
  turnoverLamports : ℤ

/-- What `summarize` refuses. -/
inductive MetricsError where
  | curveLength (curve fills : ℕ)
  | initialEquity
  | elapsedDays

/-- The running peak and the largest decline below it so far, over the points to come. -/
def drawdownFrom (peak : ℤ) (maxDrawdown : ℚ) : List ℤ → ℚ
  | [] => maxDrawdown
  | equity :: path =>
    let peak := max peak equity
    drawdownFrom peak
      (if 0 < peak then max maxDrawdown (((peak - equity : ℤ) : ℚ) / peak) else maxDrawdown) path

def returnOver (opening closing : ℤ) : ℚ :=
  if 0 < opening then ((closing - opening : ℤ) : ℚ) / opening else 0

def stepReturns (previous : ℤ) : List ℤ → List ℚ
  | [] => []
  | equity :: curve => returnOver previous equity :: stepReturns equity curve

/-- Mean over deviation of the returns, scaled to a year; `sqrt` is the decimal square root. -/
def sharpeRatio (sqrt : ℚ → ℚ) (returns : List ℚ) (elapsedDays : ℚ) : ℚ :=
  let count := returns.length
  if count < 2 ∨ elapsedDays ≤ 0 then 0
  else
    let mean := returns.sum / (count : ℚ)
    let variance := (returns.map fun item => (item - mean) ^ 2).sum / (count : ℚ)
    if variance ≤ 0 then 0
    else if sqrt variance = 0 then 0
    else mean / sqrt variance * sqrt (365 * count / elapsedDays)

/-- The steps of a curve that rise. -/
def winners (previous : ℤ) : List ℤ → ℕ
  | [] => 0
  | equity :: curve => (if 0 < equity - previous then 1 else 0) + winners equity curve

def summarize (sqrt : ℚ → ℚ) (fills : List Fill) (initial : ℤ) (curve : List ℤ)
    (elapsedDays : ℚ) : Except MetricsError MetricsReport :=
  if curve.length ≠ fills.length then .error (.curveLength curve.length fills.length)
  else if initial < 0 then .error .initialEquity
  else if elapsedDays < 0 then .error .elapsedDays
  else if fills = [] then .ok ⟨0, 0, 0, 0, 0, 0, 0⟩
  else
    .ok
      { totalReturn := returnOver initial (curve.getLastD 0)
        maxDrawdown := drawdownFrom initial 0 curve
        sharpeRatio := sharpeRatio sqrt (stepReturns initial curve) elapsedDays
        winRate := winners initial curve / fills.length
        tradeCount := fills.length
        exposureLamports := (fills.map (·.filledLamports)).max?.getD 0
        turnoverLamports := (fills.map (·.filledLamports)).sum }

/-- The summary of the fills, with the return and the drawdown of the whole path. -/
def windowMetrics (sqrt : ℚ → ℚ) (fills : List Fill) (genesis : LedgerState) (rows : List Event)
    (elapsedDays : ℚ) : Except MetricsError MetricsReport := do
  let path := equityPath genesis rows
  let opening := path.headD 0
  let closing := path.getLastD 0
  let report ← summarize sqrt fills opening (windowCurve genesis rows) elapsedDays
  .ok { report with
    totalReturn := returnOver opening closing
    maxDrawdown := drawdownFrom opening 0 path }

/-! ### The settled points -/

/-- Between the first `k` rows and the rest stand a fill and a position row. -/
def splits (rows : List Event) (k : ℕ) : Bool :=
  0 < k && (rows[k - 1]?.map (·.payload.isFill)).getD false &&
    (rows[k]?.map (·.payload.isSettlement)).getD false

/-- The equity after the first `k` rows. -/
def pointAt (genesis : LedgerState) (rows : List Event) (k : ℕ) : ℤ :=
  equityLamports (replay genesis (rows.take k))

/-- The points of a window at which `p` holds, in order. -/
def pointsWhere (p : ℕ → Bool) (genesis : LedgerState) (rows : List Event) : List ℤ :=
  ((List.range (rows.length + 1)).filter p).map (pointAt genesis rows)

variable {genesis state : LedgerState} {rows : List Event} {row : Event}

lemma pointAt_all : pointAt genesis rows rows.length = equityLamports (replay genesis rows) := by
  rw [pointAt, List.take_length]

lemma pointAt_succ (k : ℕ) :
    pointAt genesis (row :: rows) (k + 1) = pointAt (reduce genesis row) rows k := rfl

lemma pointsWhere_cons (p : ℕ → Bool) :
    pointsWhere p genesis (row :: rows) =
      (if p 0 then [equityLamports genesis] else []) ++
        pointsWhere (fun k => p (k + 1)) (reduce genesis row) rows := by
  have hrest : ((List.range (rows.length + 1)).map Nat.succ).filter p =
      ((List.range (rows.length + 1)).filter fun k => p (k + 1)).map Nat.succ := by
    rw [List.filter_map]
    rfl
  have hmap : (pointAt genesis (row :: rows)) ∘ Nat.succ = pointAt (reduce genesis row) rows := by
    funext k
    exact pointAt_succ k
  rw [pointsWhere, List.length_cons, List.range_succ_eq_map, List.filter_cons, hrest]
  split_ifs
  · rw [List.map_cons, List.map_map, hmap]
    rfl
  · rw [List.map_map, hmap]
    rfl

/-- A path does not change what the points after it are; it only leaves out the first. -/
lemma pathFrom_unsettled (h : (rows.head?.map (·.payload.isSettlement)).getD false = false) :
    pathFrom state true rows = equityLamports state :: pathFrom state false rows := by
  cases rows with
  | nil => rfl
  | cons r rs =>
    have hr : r.payload.isSettlement = false := h
    simp [pathFrom, hr]

lemma pathFrom_settling (h : (rows.head?.map (·.payload.isSettlement)).getD false = true) :
    pathFrom state true rows = pathFrom state false rows := by
  cases rows with
  | nil => simp at h
  | cons r rs =>
    have hr : r.payload.isSettlement = true := h
    simp [pathFrom, hr]

lemma splits_zero : splits rows 0 = false := rfl

lemma splits_one :
    splits (row :: rows) 1 =
      (row.payload.isFill && (rows.head?.map (·.payload.isSettlement)).getD false) := by
  simp [splits, List.head?_eq_getElem?]

lemma splits_succ (k : ℕ) : splits (row :: rows) (k + 2) = splits rows (k + 1) := by
  simp [splits]

/-- The points of a tail of rows, with its first point or without it. -/
lemma splits_tail :
    pointsWhere (fun k => !splits (row :: rows) (k + 1)) state rows =
      if splits (row :: rows) 1 then (pointsWhere (fun k => !splits rows k) state rows).tail
      else pointsWhere (fun k => !splits rows k) state rows := by
  cases rows with
  | nil =>
    have h : splits [row] 1 = false := by simp [splits_one]
    simp [pointsWhere, h, splits_zero]
  | cons r rs =>
    rw [pointsWhere_cons, pointsWhere_cons]
    simp only [zero_add, splits_succ, splits_zero, Bool.not_false, if_true]
    by_cases h : splits (row :: r :: rs) 1 = true
    · simp [h]
    · rw [Bool.not_eq_true] at h
      simp [h]

/-- **The path** holds the equity at every point but those between a fill and a position row. -/
theorem equityPath_points (genesis : LedgerState) (rows : List Event) :
    equityPath genesis rows = pointsWhere (fun k => !splits rows k) genesis rows := by
  induction rows generalizing genesis with
  | nil => simp [equityPath, pathFrom, pointsWhere, splits_zero, pointAt]
  | cons r rs ih =>
    rw [pointsWhere_cons, splits_tail, splits_zero, splits_one, equityPath, pathFrom]
    simp only [Bool.false_and, Bool.false_eq_true, if_false, List.nil_append, Bool.not_false,
      if_true, List.singleton_append, List.cons.injEq, true_and]
    rw [← ih, equityPath]
    -- after a fill the first point of the rest is left out when a position row follows
    by_cases hf : r.payload.isFill = true
    · by_cases hs : (rs.head?.map (·.payload.isSettlement)).getD false = true
      · simp [hf, hs, pathFrom_settling hs]
      · rw [Bool.not_eq_true] at hs
        simp [hf, hs, pathFrom_unsettled hs]
    · rw [Bool.not_eq_true] at hf
      simp [hf]

lemma splits_all : splits rows rows.length = false := by simp [splits]

/-- The path ends at the closing equity. -/
lemma equityPath_last (genesis : LedgerState) (rows : List Event) :
    (equityPath genesis rows).getLastD 0 = equityLamports (replay genesis rows) := by
  have hlast : pointsWhere (fun k => !splits rows k) genesis rows =
      (((List.range rows.length).filter fun k => !splits rows k).map (pointAt genesis rows)) ++
        [equityLamports (replay genesis rows)] := by
    rw [pointsWhere, List.range_succ, List.filter_append, List.map_append, ← pointAt_all]
    simp [splits_all]
  rw [equityPath_points, hlast]
  simp

lemma equityPath_head : (equityPath genesis rows).headD 0 = equityLamports genesis := rfl

/-- **The report and the search** read one net off the rows. -/
lemma equityPath_net (genesis : LedgerState) (rows : List Event) :
    (equityPath genesis rows).getLastD 0 - (equityPath genesis rows).headD 0 =
      netLamports genesis rows := by
  rw [equityPath_last, equityPath_head, netLamports]

/-! ### The curve -/

def fillRows (rows : List Event) : List Event := rows.filter (·.payload.isFill)

lemma curveFrom_length (pending : Bool) :
    (curveFrom state pending rows).length = (fillRows rows).length + if pending then 1 else 0 := by
  induction rows generalizing state pending with
  | nil => cases pending <;> rfl
  | cons r rs ih =>
    rw [curveFrom, List.length_append, ih]
    have hfills : (fillRows (r :: rs)).length =
        (fillRows rs).length + if r.payload.isFill then 1 else 0 := by
      by_cases hf : r.payload.isFill = true <;> simp [fillRows, hf]
    rw [hfills]
    by_cases hf : r.payload.isFill = true
    · cases pending
      · simp [hf]
      · simp [hf]
        omega
    · cases pending <;> simp [hf]

lemma curveFrom_last {pending : Bool} (h : pending = true ∨ fillRows rows ≠ []) :
    (curveFrom state pending rows).getLast? = some (equityLamports (replay state rows)) := by
  induction rows generalizing state pending with
  | nil =>
    have hp : pending = true := by simpa [fillRows] using h
    simp [curveFrom, hp]
  | cons r rs ih =>
    have hrest : (pending || r.payload.isFill) = true ∨ fillRows rs ≠ [] := by
      rcases h with h | h
      · exact .inl (by simp [h])
      · by_cases hf : r.payload.isFill = true
        · exact .inl (by simp [hf])
        · exact .inr (by simpa [fillRows, hf] using h)
    rw [curveFrom, List.getLast?_append, ih hrest, replay_cons]
    rfl

lemma windowCurve_length (genesis : LedgerState) (rows : List Event) :
    (windowCurve genesis rows).length = (fillRows rows).length := by
  rw [windowCurve, curveFrom_length]
  rfl

/-! ### Whole batches -/

/-- Point `k` of the batches stands between a fill and a position row of the same batch. -/
def Between (batches : List (List Event)) (k : ℕ) : Prop :=
  ∃ bs b cs pre f mid p rest, batches = bs ++ b :: cs ∧ b = pre ++ f :: (mid ++ p :: rest) ∧
    f.payload.isFill = true ∧ p.payload.isSettlement = true ∧
    bs.flatten.length + pre.length < k ∧ k ≤ bs.flatten.length + pre.length + 1 + mid.length

/-- A batch opens with its fill, if it has one, and a position row stands next to it. -/
structure Settled (b : List Event) : Prop where
  nonempty : b ≠ []
  head : (b.head?.map (·.payload.isSettlement)).getD false = false
  tail : ∀ e ∈ b.tail, e.payload.isFill = false
  rest : ∀ e ∈ b.drop 2, e.payload.isSettlement = false

lemma isFill_aside {p : Payload} (h : p.isTrade = false) : p.isFill = false := by
  cases p <;> simp_all [Payload.isTrade, Payload.isFill]

lemma isSettlement_aside {p : Payload} (h : p.isTrade = false) : p.isSettlement = false := by
  cases p <;> simp_all [Payload.isTrade, Payload.isSettlement]

lemma settled_of_payloads {b : List Event} {ps : List Payload} (hp : b.map (·.payload) = ps)
    (hn : ps ≠ []) (hh : (ps.head?.map Payload.isSettlement).getD false = false)
    (ht : ∀ p ∈ ps.tail, p.isFill = false) (hr : ∀ p ∈ ps.drop 2, p.isSettlement = false) :
    Settled b := by
  subst hp
  refine ⟨by simpa using hn, by simpa [List.head?_map, Function.comp_def] using hh, ?_, ?_⟩
  · intro e he
    exact ht _ (by rw [← List.map_tail]; exact List.mem_map_of_mem he)
  · intro e he
    exact hr _ (by rw [← List.map_drop]; exact List.mem_map_of_mem he)

/-- A batch of the trading path or of another writer is settled. -/
lemma settled_of_ok {P : Dict Mint PositionView} {b : List Event}
    (h : BatchOk P (b.map (·.payload))) : Settled b := by
  generalize hp : b.map (·.payload) = ps at h
  cases h with
  | aside p ha =>
    exact settled_of_payloads hp (by simp) (by simp [isSettlement_aside ha]) (by simp) (by simp)
  | rejected p => exact settled_of_payloads hp (by simp) rfl (by simp) (by simp)
  | placed p => exact settled_of_payloads hp (by simp) rfl (by simp) (by simp)
  | consumed a p =>
    exact settled_of_payloads hp (by simp) rfl (by simp [Payload.isFill]) (by simp)
  | marked p => exact settled_of_payloads hp (by simp) rfl (by simp) (by simp)
  | opened f o => exact settled_of_payloads hp (by simp) rfl (by simp [Payload.isFill]) (by simp)
  | added f v => exact settled_of_payloads hp (by simp) rfl (by simp) (by simp)
  | reduced f v => exact settled_of_payloads hp (by simp) rfl (by simp) (by simp)
  | closed f v c rest _ _ _ _ _ _ ha =>
    refine settled_of_payloads hp (by simp) rfl ?_ ?_
    · intro p hp
      rcases List.mem_cons.mp (show p ∈ .positionClosed c :: rest from hp) with rfl | hp
      · rfl
      · exact isFill_aside (ha p hp)
    · intro p hp
      exact isSettlement_aside (ha p hp)

variable {batches : List (List Event)}

lemma head_flatten (h : ∀ b ∈ batches, Settled b) :
    (batches.flatten.head?.map (·.payload.isSettlement)).getD false = false := by
  cases batches with
  | nil => rfl
  | cons b bs =>
    obtain ⟨e, es, rfl⟩ := List.exists_cons_of_ne_nil (h b (by simp)).nonempty
    have hhead := (h (e :: es) List.mem_cons_self).head
    simpa using hhead

/-- Where rows are cut between a fill and a position row, both are of one batch. -/
lemma between_of_splits (h : ∀ b ∈ batches, Settled b) {k : ℕ}
    (hk : splits batches.flatten k = true) : Between batches k := by
  induction batches generalizing k with
  | nil => simp [splits] at hk
  | cons b bs ih =>
    have hb : Settled b := h b (by simp)
    have hbs : ∀ b ∈ bs, Settled b := fun c hc => h c (List.mem_cons_of_mem _ hc)
    simp only [splits, Bool.and_eq_true, decide_eq_true_eq, List.flatten_cons] at hk
    obtain ⟨⟨hpos, hf⟩, hs⟩ := hk
    rcases Nat.lt_trichotomy k b.length with hlt | rfl | hgt
    · rw [List.getElem?_append_left (by omega), List.getElem?_eq_getElem (by omega)] at hf
      rw [List.getElem?_append_left hlt, List.getElem?_eq_getElem hlt] at hs
      refine ⟨[], b, bs, b.take (k - 1), b[k - 1], [], b[k], b.drop (k + 1),
        rfl, ?_, hf, hs, ?_, ?_⟩
      · have h₁ : b.drop (k - 1) = b[k - 1] :: b.drop k := by
          rw [List.drop_eq_getElem_cons (by omega)]
          congr 2
          omega
        rw [List.nil_append, ← List.drop_eq_getElem_cons hlt, ← h₁, List.take_append_drop]
      · simp
        omega
      · simp
        omega
    · -- the first row of the next batch is no position row
      rw [List.getElem?_append_right (le_refl _), Nat.sub_self, ← List.head?_eq_getElem?,
        head_flatten hbs] at hs
      simp at hs
    · have hsplit : splits bs.flatten (k - b.length) = true := by
        rw [List.getElem?_append_right (by omega)] at hf hs
        have hk1 : k - 1 - b.length = k - b.length - 1 := by omega
        rw [hk1] at hf
        simp only [splits, Bool.and_eq_true, decide_eq_true_eq]
        exact ⟨⟨by omega, hf⟩, hs⟩
      obtain ⟨cs, c, ds, pre, f, mid, p, rest, rfl, hc, hfill, hset, h₁, h₂⟩ := ih hbs hsplit
      refine ⟨b :: cs, c, ds, pre, f, mid, p, rest, rfl, hc, hfill, hset, ?_, ?_⟩ <;>
        simp only [List.flatten_cons, List.length_append] <;> omega

lemma splits_of_between (h : ∀ b ∈ batches, Settled b) {k : ℕ} (hk : Between batches k) :
    splits batches.flatten k = true := by
  obtain ⟨bs, b, cs, pre, f, mid, p, rest, rfl, rfl, hf, hs, h₁, h₂⟩ := hk
  have hb : Settled (pre ++ f :: (mid ++ p :: rest)) := h _ (by simp)
  -- the fill stands first and the position row second
  have hpre : pre = [] := by
    cases pre with
    | nil => rfl
    | cons e es =>
      have := hb.tail f (by simp)
      simp [hf] at this
  subst hpre
  have hmid : mid = [] := by
    cases mid with
    | nil => rfl
    | cons e es =>
      have := hb.rest p (by simp)
      simp [hs] at this
  subst hmid
  obtain rfl : k = bs.flatten.length + 1 := by
    simp only [List.length_nil] at h₁ h₂
    omega
  simp [splits, hf, hs]

/-- In a ledger of whole batches the points left out are those between a fill and its settlement. -/
lemma splits_iff_between (h : ∀ b ∈ batches, Settled b) (k : ℕ) :
    splits batches.flatten k = true ↔ Between batches k :=
  ⟨between_of_splits h, splits_of_between h⟩

/-! ### Windows of a run -/

/-- A window of whole batches of a run. -/
lemma settled_window (cfg : DeskConfig) (now e₀ : ℤ) (killswitch : KillSwitch)
    (as : List Action) {bs ws : List (List Event)}
    (h : bs ++ ws <+: (Runs.after (Sys.step cfg) (Sys.start now e₀ killswitch) as).store.txns) :
    ∀ b ∈ ws, Settled b := by
  intro b hb
  obtain ⟨us, vs, rfl⟩ := List.append_of_mem hb
  have hl := (Sys.books_after cfg now e₀ killswitch as).legal
  refine settled_of_ok (hl (bs ++ us) b (List.IsPrefix.trans ⟨vs, ?_⟩ h))
  simp

/-- **The report and the search agree.** Over the rows of any window of whole batches of any run,
from any opening state: the path nets what the search nets; the curve has a point for each fill and
ends at the closing equity; the path is the equity at every point but those between a fill and the
position row of its settlement; and the reported return and drawdown are those of that path. -/
theorem report_agrees (cfg : DeskConfig) (now e₀ : ℤ) (killswitch : KillSwitch)
    (as : List Action) (bs ws : List (List Event))
    (h : bs ++ ws <+: (Runs.after (Sys.step cfg) (Sys.start now e₀ killswitch) as).store.txns)
    (genesis : LedgerState) :
    let rows := ws.flatten
    let path := equityPath genesis rows
    path.getLastD 0 - path.headD 0 = netLamports genesis rows ∧
      (windowCurve genesis rows).length = (fillRows rows).length ∧
      (fillRows rows ≠ [] →
        (windowCurve genesis rows).getLast? = some (equityLamports (replay genesis rows))) ∧
      ∃ kept : ℕ → Bool, (∀ k, kept k = true ↔ ¬ Between ws k) ∧
        path = pointsWhere kept genesis rows ∧
        ∀ sqrt fills elapsedDays report,
          windowMetrics sqrt fills genesis rows elapsedDays = .ok report →
            report.totalReturn = returnOver (equityLamports genesis)
                (equityLamports genesis + netLamports genesis rows) ∧
              report.maxDrawdown =
                drawdownFrom (equityLamports genesis) 0 (pointsWhere kept genesis rows) := by
  have hsettled := settled_window cfg now e₀ killswitch as h
  have hpoints := equityPath_points genesis ws.flatten
  refine ⟨equityPath_net genesis _, windowCurve_length genesis _,
    fun hf => curveFrom_last (.inr hf),
    fun k => !splits ws.flatten k, fun k => ?_, hpoints, ?_⟩
  · rw [← splits_iff_between hsettled k, Bool.not_eq_true', Bool.not_eq_true]
  · intro sqrt fills elapsedDays report hr
    obtain ⟨base, -, hreport⟩ := except_bind_ok_iff.mp hr
    cases hreport
    have hclosing : (equityPath genesis ws.flatten).getLastD 0 =
        equityLamports genesis + netLamports genesis ws.flatten := by
      rw [equityPath_last, netLamports]
      ring
    exact ⟨by rw [hclosing, equityPath_head], by rw [← hpoints, equityPath_head]⟩

/-- A buy, a sale of a third and a sale of the rest: three points on the curve. -/
theorem report_agrees_sample :
    (windowCurve (initialState 10000000000 0)
      (Sys.sampleAfter Sys.sampleTrades).store.txns.flatten).length = 3 := by
  have hp : [] ++ (Sys.sampleAfter Sys.sampleTrades).store.txns <+:
      (Sys.sampleAfter Sys.sampleTrades).store.txns := by
    rw [List.nil_append]
  have hcurve := (report_agrees Sys.sampleConfig 0 10000000000 {} Sys.sampleTrades [] _ hp
    (initialState 10000000000 0)).2.1
  have hfills : (fillRows (Sys.sampleAfter Sys.sampleTrades).store.txns.flatten).length = 3 := by
    decide +kernel
  rw [hcurve, hfills]

end Backtest

end PumpGrok
