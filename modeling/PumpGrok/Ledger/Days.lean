import PumpGrok.Ledger.Reducer

/-!
Days of the ledger. The counters of the fold are reset by the rollover row and grow by row order,
so they are the totals of a day when its rows and its rollover come in the order of the days.
-/

namespace PumpGrok

/-! ### The day a fold starts with -/

/-- A state counted under another day. -/
def LedgerState.onDay (day : ℤ) (s : LedgerState) : LedgerState := { s with dayUtc := day }

lemma trackPeak_day (s : LedgerState) (day : ℤ) :
    trackPeak (s.onDay day) = (trackPeak s).onDay day := by
  unfold trackPeak
  rw [apply_ite (LedgerState.onDay day)]
  rfl

/-- The day is read by no handler. -/
lemma handle_day (s : LedgerState) (day ts : ℤ) (p : Payload) :
    ∃ day', handle (s.onDay day) ts p = (handle s ts p).onDay day' := by
  cases p with
  | positionOpened p =>
    refine ⟨day, ?_⟩
    simp only [handle, onPositionOpened]
    split_ifs
    · rfl
    · rw [← trackPeak_day]
      rfl
  | positionClosed p =>
    refine ⟨day, ?_⟩
    simp only [handle, onPositionClosed]
    rw [← trackPeak_day]
    rfl
  | fillRecorded p =>
    refine ⟨day, ?_⟩
    have hpos : (s.onDay day).positions = s.positions := rfl
    simp only [handle, onFill, hpos]
    rw [← trackPeak_day]
    split
    · rfl
    · split_ifs <;> rfl
  | markToMarket p =>
    refine ⟨day, ?_⟩
    simp only [handle, onMtm]
    rw [← trackPeak_day]
    rfl
  | dailyRollover p => exact ⟨p.dayUtc, rfl⟩
  | _ => exact ⟨day, rfl⟩

lemma replay_day (s : LedgerState) (day : ℤ) (es : List Event) :
    ∃ day', replay (s.onDay day) es = (replay s es).onDay day' := by
  induction es generalizing s day with
  | nil => exact ⟨day, rfl⟩
  | cons e es ih =>
    obtain ⟨day₁, hone⟩ := handle_day s day e.ts e.payload
    obtain ⟨day₂, hrest⟩ := ih (reduce s e) day₁
    refine ⟨day₂, ?_⟩
    rw [replay_cons, replay_cons, ← hrest]
    unfold reduce
    rw [hone]
    rfl


@[simp] lemma equity_onDay (s : LedgerState) (day : ℤ) :
    equityLamports (s.onDay day) = equityLamports s := rfl

/-! ### What a row adds to the counters -/

inductive Counter where
  | trades
  | fees
  | realized
  deriving DecidableEq

def CountersView.of (c : CountersView) : Counter → ℤ
  | .trades => c.tradesToday
  | .fees => c.feesTodayLamports
  | .realized => c.realizedTodayLamports

/-- What a fill realizes of the position it finds. -/
def fillRealized (s : LedgerState) (p : FillRecorded) : ℤ :=
  match s.positions.get p.mint with
  | none => 0
  | some pos =>
    if p.side = .buy then 0
    else if 0 < pos.tokenUnits ∧ 0 < p.filledUnits then sliceRealized pos p
    else 0

def amount (s : LedgerState) : Payload → Counter → ℤ
  | .fillRecorded p, .trades => if p.side = .buy then 1 else 0
  | .fillRecorded p, .fees => p.venueFeeLamports + p.networkCostLamports
  | .fillRecorded p, .realized => fillRealized s p
  | .orderRejected p, .fees => p.feesLamports
  | .positionClosed p, .realized => p.realizedPnlLamports
  | _, _ => 0

namespace Payload

def isRollover : Payload → Bool
  | .dailyRollover _ => true
  | _ => false

def isFill : Payload → Bool
  | .fillRecorded _ => true
  | _ => false

/-- Rows that can move a counter. -/
def counts : Payload → Bool
  | .fillRecorded _ | .positionClosed _ => true
  | .orderRejected p => p.feesLamports ≠ 0
  | _ => false

lemma isRollover_iff {p : Payload} : p.isRollover = true ↔ ∃ q, p = .dailyRollover q := by
  cases p <;> simp [isRollover]

lemma not_fill_of_rollover {p : Payload} (h : p.isRollover = true) : p.isFill = false := by
  obtain ⟨q, rfl⟩ := isRollover_iff.mp h
  rfl

lemma counts_of_fill {p : Payload} (h : p.isFill = true) : p.counts = true := by
  cases p <;> simp_all [isFill, counts]

end Payload

lemma amount_eq_zero {p : Payload} (s : LedgerState) (c : Counter) (h : p.counts = false) :
    amount s p c = 0 := by
  cases p <;> cases c <;> simp_all [Payload.counts, amount]

/-- **Counters.** A rollover resets them; any other row adds its amount. -/
lemma handle_counter (s : LedgerState) (ts : ℤ) (p : Payload) (c : Counter) :
    (handle s ts p).counters.of c =
      if p.isRollover then 0 else s.counters.of c + amount s p c := by
  cases p with
  | fillRecorded p =>
    simp only [handle, onFill, trackPeak_counters, Payload.isRollover, Bool.false_eq_true, if_false]
    cases hget : s.positions.get p.mint with
    | none => cases c <;> simp [CountersView.of, amount, fillRealized, hget]
    | some pos =>
      by_cases hbuy : p.side = .buy
      · cases c <;> simp [CountersView.of, amount, fillRealized, hget, hbuy]
      · by_cases hsold : 0 < pos.tokenUnits ∧ 0 < p.filledUnits <;>
          cases c <;> simp [CountersView.of, amount, fillRealized, hget, hbuy, hsold]
  | positionOpened p =>
    simp only [handle, onPositionOpened]
    split_ifs <;> cases c <;> simp_all [amount, CountersView.of, Payload.isRollover]
  | _ =>
    cases c <;> simp [handle, amount, CountersView.of, Payload.isRollover, onPositionClosed,
      onRejected, onMtm, onHaltSet, onHaltCleared, onKillSet, onKillCleared, onBreakerTripped,
      onBreakerReset, onRollover, onApproval]

/-! ### The rows of a day -/

/-- Each row with what it adds where it is folded. -/
def rowAmounts (s : LedgerState) : List Event → List (Event × (Counter → ℤ))
  | [] => []
  | e :: es => (e, amount s e.payload) :: rowAmounts (reduce s e) es

/-- What the rows stamped on a day add to a counter. -/
def totalOn (day : ℤ) (c : Counter) (s : LedgerState) (es : List Event) : ℤ :=
  (((rowAmounts s es).filter fun x => utcDay x.1.ts = day).map (·.2 c)).sum

/-- The rows after the last rollover. -/
def sinceRollover (es : List Event) : List Event := es.rtakeWhile fun e => !e.payload.isRollover

/-- The rows up to the last rollover. -/
def throughRollover (es : List Event) : List Event := es.rdropWhile fun e => !e.payload.isRollover

lemma through_append_since (es : List Event) : throughRollover es ++ sinceRollover es = es :=
  List.rdropWhile_append_rtakeWhile

/-- The counting rows after the last rollover are those stamped on the day. -/
def OnDay (es : List Event) (day : ℤ) : Prop :=
  (∀ e ∈ throughRollover es, e.payload.counts = true → utcDay e.ts ≠ day) ∧
    ∀ e ∈ sinceRollover es, e.payload.counts = true → utcDay e.ts = day

instance (es : List Event) (day : ℤ) : Decidable (OnDay es day) :=
  inferInstanceAs (Decidable (_ ∧ _))

lemma rowAmounts_append (s : LedgerState) (es fs : List Event) :
    rowAmounts s (es ++ fs) = rowAmounts s es ++ rowAmounts (replay s es) fs := by
  induction es generalizing s with
  | nil => rfl
  | cons e es ih =>
    rw [List.cons_append, rowAmounts, ih, rowAmounts, replay_cons, List.cons_append]

/-- Rows that count on no other day than theirs can be left out or put in. -/
lemma totalOn_append (day : ℤ) (c : Counter) (s : LedgerState) (es fs : List Event) :
    totalOn day c s (es ++ fs) = totalOn day c s es + totalOn day c (replay s es) fs := by
  unfold totalOn
  rw [rowAmounts_append, List.filter_append, List.map_append, List.sum_append]

@[simp] lemma totalOn_nil (day : ℤ) (c : Counter) (s : LedgerState) : totalOn day c s [] = 0 := rfl

lemma totalOn_cons (day : ℤ) (c : Counter) (s : LedgerState) (e : Event) (es : List Event) :
    totalOn day c s (e :: es) =
      (if utcDay e.ts = day then amount s e.payload c else 0) + totalOn day c (reduce s e) es := by
  unfold totalOn
  rw [rowAmounts, List.filter_cons]
  split_ifs with h₁ h₂ h₂
  · simp
  · exact absurd (of_decide_eq_true h₁) h₂
  · exact absurd (decide_eq_true h₂) h₁
  · simp

/-- Rows none of which counts on the day add nothing to it. -/
lemma totalOn_other {day : ℤ} (c : Counter) (s : LedgerState) {es : List Event}
    (h : ∀ e ∈ es, e.payload.counts = true → utcDay e.ts ≠ day) : totalOn day c s es = 0 := by
  induction es generalizing s with
  | nil => rfl
  | cons e es ih =>
    rw [totalOn_cons, ih _ fun x hx => h x (List.mem_cons_of_mem _ hx), add_zero]
    split_ifs with hd
    · refine amount_eq_zero s c (Bool.eq_false_iff.mpr fun hc => ?_)
      exact h e List.mem_cons_self hc hd
    · rfl

/-- Without a rollover, the counters grow by the total of a day all counting rows are of. -/
lemma counter_grows {day : ℤ} (c : Counter) (s : LedgerState) {es : List Event}
    (hr : ∀ e ∈ es, e.payload.isRollover = false)
    (hd : ∀ e ∈ es, e.payload.counts = true → utcDay e.ts = day) :
    (replay s es).counters.of c = s.counters.of c + totalOn day c s es := by
  induction es generalizing s with
  | nil => simp
  | cons e es ih =>
    have hrest := ih (reduce s e) (fun x hx => hr x (List.mem_cons_of_mem _ hx))
      fun x hx => hd x (List.mem_cons_of_mem _ hx)
    have hone : (reduce s e).counters.of c = s.counters.of c + amount s e.payload c := by
      rw [reduce_counters, handle_counter, hr e List.mem_cons_self]
      rfl
    rw [replay_cons, hrest, hone, totalOn_cons, add_assoc]
    by_cases h : utcDay e.ts = day
    · rw [if_pos h]
    · rw [if_neg h,
        amount_eq_zero s c (Bool.eq_false_iff.mpr fun hc => h (hd e List.mem_cons_self hc))]

/-- The rows through the last rollover are none, or end with it. -/
lemma throughRollover_cases (es : List Event) :
    throughRollover es = [] ∨
      ∃ front e, throughRollover es = front ++ [e] ∧ e.payload.isRollover = true := by
  rcases List.eq_nil_or_concat' (throughRollover es) with h | ⟨front, e, h⟩
  · exact .inl h
  · refine .inr ⟨front, e, h, ?_⟩
    have hne : throughRollover es ≠ [] := by rw [h]; simp
    have hlast : ¬ (!((throughRollover es).getLast hne).payload.isRollover) = true :=
      List.rdropWhile_last_not _ _ hne
    have heq : (throughRollover es).getLast hne = e := by simp [h]
    simpa [heq] using hlast

lemma sinceRollover_not {es : List Event} {e : Event} (h : e ∈ sinceRollover es) :
    e.payload.isRollover = false := by
  have := List.mem_rtakeWhile_imp h
  simpa using this

/-- **The counters of a day.** Where the counting rows since the last rollover are those stamped
on a day, the counters are the totals of the day. -/
theorem counters_onDay {day : ℤ} {s : LedgerState} {es : List Event} (h₀ : s.counters = {})
    (h : OnDay es day) (c : Counter) : (replay s es).counters.of c = totalOn day c s es := by
  obtain ⟨hthrough, hsince⟩ := h
  have hreset : (replay s (throughRollover es)).counters.of c = 0 := by
    rcases throughRollover_cases es with hnil | ⟨front, e, heq, hroll⟩
    · rw [hnil, replay_nil, h₀]
      cases c <;> rfl
    · rw [heq, replay_append, replay_cons, replay_nil, reduce_counters, handle_counter, hroll]
      rfl
  have hgrow := counter_grows c (replay s (throughRollover es)) (fun e => sinceRollover_not) hsince
  have hfront : totalOn day c s (throughRollover es) = 0 := totalOn_other c s hthrough
  rw [← through_append_since es, replay_append, hgrow, totalOn_append, hreset, hfront]

/-! ### The start of a day -/

lemma handle_dayStart (s : LedgerState) (ts : ℤ) {p : Payload} (h : p.isRollover = false) :
    (handle s ts p).dayStartEquityLamports = s.dayStartEquityLamports := by
  have hpeak :
      ∀ s : LedgerState, (trackPeak s).dayStartEquityLamports = s.dayStartEquityLamports := by
    intro s
    unfold trackPeak
    split_ifs <;> rfl
  cases p with
  | dailyRollover p => cases h
  | positionOpened p =>
    simp only [handle, onPositionOpened]
    split_ifs
    · rfl
    · exact hpeak _
  | positionClosed p => exact hpeak _
  | fillRecorded p =>
    simp only [handle, onFill, hpeak]
    split
    · rfl
    · split_ifs <;> rfl
  | markToMarket p => exact hpeak _
  | _ => rfl

lemma dayStart_kept (s : LedgerState) {es : List Event}
    (h : ∀ e ∈ es, e.payload.isRollover = false) :
    (replay s es).dayStartEquityLamports = s.dayStartEquityLamports := by
  induction es generalizing s with
  | nil => rfl
  | cons e es ih =>
    rw [replay_cons, ih _ fun x hx => h x (List.mem_cons_of_mem _ hx)]
    exact handle_dayStart s e.ts (h e List.mem_cons_self)

/-- Every rollover carries the equity of the rows before it. -/
def Priced (s : LedgerState) (es : List Event) : Prop :=
  ∀ front e p, front ++ [e] <+: es → e.payload = .dailyRollover p →
    p.dayStartEquityLamports = equityLamports (replay s front)

lemma Priced.append {s : LedgerState} {es fs : List Event} (h : Priced s es)
    (hf : ∀ e ∈ fs, e.payload.isRollover = false) : Priced s (es ++ fs) := by
  induction fs using List.reverseRecOn with
  | nil => simpa using h
  | append_singleton fs x ih =>
    intro front e p hpre hp
    rw [← List.append_assoc] at hpre
    rcases List.prefix_concat_iff.mp hpre with heq | hold
    · obtain ⟨-, hlast⟩ := List.append_inj' heq rfl
      have hx := hf x (by simp)
      rw [← List.singleton_inj.mp hlast, hp] at hx
      cases hx
    · exact ih (fun y hy => hf y (List.mem_append_left _ hy)) front e p hold hp

/-- The day starts with the equity of a moment between the fills of other days and its own. -/
def DayStart (day : ℤ) (s : LedgerState) (es : List Event) : Prop :=
  ∃ front back, es = front ++ back ∧
    (replay s es).dayStartEquityLamports = equityLamports (replay s front) ∧
    (∀ e ∈ front, e.payload.isFill = true → utcDay e.ts ≠ day) ∧
    ∀ e ∈ back, e.payload.isFill = true → utcDay e.ts = day

theorem dayStart_onDay {day : ℤ} {s : LedgerState} {es : List Event}
    (h₀ : s.dayStartEquityLamports = equityLamports s) (hp : Priced s es) (h : OnDay es day) :
    DayStart day s es := by
  obtain ⟨hthrough, hsince⟩ := h
  have hkept := dayStart_kept (replay s (throughRollover es))
    fun e (he : e ∈ sinceRollover es) => sinceRollover_not he
  rw [← replay_append, through_append_since] at hkept
  rcases throughRollover_cases es with hnil | ⟨front, e, heq, hroll⟩
  · refine ⟨[], es, rfl, ?_, by simp, fun x hx hf => ?_⟩
    · rw [hkept, hnil, replay_nil, h₀]
    · have hes := through_append_since es
      rw [hnil, List.nil_append] at hes
      rw [← hes] at hx
      exact hsince x hx (Payload.counts_of_fill hf)
  · have hes : es = front ++ (e :: sinceRollover es) := by
      conv_lhs => rw [← through_append_since es, heq]
      simp
    refine ⟨front, e :: sinceRollover es, hes, ?_, fun x hx hf => ?_, fun x hx hf => ?_⟩
    · obtain ⟨p, hpay⟩ := Payload.isRollover_iff.mp hroll
      have hprice : p.dayStartEquityLamports = equityLamports (replay s front) :=
        hp front e p (by rw [← heq]; exact List.rdropWhile_prefix _ _) hpay
      rw [hkept, heq, replay_append, replay_cons, replay_nil, ← hprice]
      show (handle _ _ e.payload).dayStartEquityLamports = _
      rw [hpay]
      rfl
    · exact hthrough x (by rw [heq]; exact List.mem_append_left _ hx) (Payload.counts_of_fill hf)
    · rcases List.mem_cons.mp hx with rfl | hx
      · rw [Payload.not_fill_of_rollover hroll] at hf
        cases hf
      · exact hsince x hx (Payload.counts_of_fill hf)

/-! ### Attribution -/

/-- After every row the counters are the totals of the rows stamped on the day of that row, and
the day started before its first fill. -/
def Attributed (s : LedgerState) (es : List Event) : Prop :=
  ∀ front e, front ++ [e] <+: es →
    (∀ c, (replay s (front ++ [e])).counters.of c = totalOn (utcDay e.ts) c s (front ++ [e])) ∧
      DayStart (utcDay e.ts) s (front ++ [e])

/-- Each of the rows comes, after those before it, on the day of the last rollover. -/
def Timely (es : List Event) : List Event → Prop
  | [] => True
  | e :: fs => OnDay (es ++ [e]) (utcDay e.ts) ∧ Timely (es ++ [e]) fs

instance decidableTimely : ∀ es fs : List Event, Decidable (Timely es fs)
  | _, [] => .isTrue trivial
  | es, e :: fs => @instDecidableAnd _ _ _ (decidableTimely (es ++ [e]) fs)

lemma timely_append {es fs gs : List Event} :
    Timely es (fs ++ gs) ↔ Timely es fs ∧ Timely (es ++ fs) gs := by
  induction fs generalizing es with
  | nil => simp [Timely]
  | cons e fs ih => simp [Timely, ih, and_assoc]

theorem attributed_of_timely {s : LedgerState} {es : List Event} (hc : s.counters = {})
    (h₀ : s.dayStartEquityLamports = equityLamports s) (hp : Priced s es) (h : Timely [] es) :
    Attributed s es := by
  intro front e hpre
  obtain ⟨back, hes⟩ := hpre
  have hday : OnDay (front ++ [e]) (utcDay e.ts) := by
    rw [← hes, timely_append, timely_append] at h
    simpa [Timely] using h.1.2
  have hprice : Priced s (front ++ [e]) := fun f x p hf hx =>
    hp f x p (hf.trans ⟨back, hes⟩) hx
  exact ⟨fun c => counters_onDay hc hday c, dayStart_onDay h₀ hprice hday⟩

end PumpGrok
