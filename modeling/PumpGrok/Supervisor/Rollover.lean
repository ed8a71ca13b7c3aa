import PumpGrok.Ledger.Days
import PumpGrok.Ledger.Growth
import PumpGrok.Lib.Runs

/-!
The supervisor's rollover. A tick writes the day's rollover row before it starts a seat; the seats
run on between ticks, so a fill of the new day may come first.
-/

namespace PumpGrok

/-- The ledger, and the day the supervisor last saw a rollover for. -/
structure TickDesk where
  store : LedgerStore
  budgetEquityLamports : ℤ
  lastRolloverDay : Option ℤ := none

namespace TickDesk

def initialEquity (s : TickDesk) : ℤ := s.store.initialEquity.getD s.budgetEquityLamports

/-- Account equity folded from the ledger. -/
def dayStartEquity (s : TickDesk) (now : ℤ) : ℤ :=
  equityLamports (replay (initialState s.initialEquity (utcDay now)) s.store.read)

def rolloverRow (s : TickDesk) (source : EventSource) (now : ℤ) : Row where
  ts := now
  source := source
  key := .rollover (utcDay now)
  payload := .dailyRollover
    { dayUtc := utcDay now, dayStartEquityLamports := s.dayStartEquity now }

/-- Append one rollover a day. A row that is there already settles the day; any other failure is
logged, and the next tick tries again. -/
def emitRollover (s : TickDesk) (source : EventSource) (now : ℤ) : TickDesk :=
  if s.lastRolloverDay = some (utcDay now) then s
  else
    match LedgerStore.append (s.rolloverRow source now) s.store with
    | (.ok _, st) => { s with store := st, lastRolloverDay := some (utcDay now) }
    | (.error .integrityError, st) => { s with store := st, lastRolloverDay := some (utcDay now) }
    | (.error _, st) => { s with store := st }

/-- What happens between midnights: a tick begins, another writer commits a transaction at any
time, the ledger is verified, or the supervisor is restarted. Only the supervisor writes
rollovers. -/
inductive TickAction where
  | beginTick (source : EventSource) (now : ℤ)
  | write (rows : List Row) (h : ∀ r ∈ rows, r.payload.isRollover = false)
  | verify (intact : Bool)
  | restart

def step (s : TickDesk) : TickAction → TickDesk
  | .beginTick source now => s.emitRollover source now
  | .write rows _ => { s with store := (LedgerStore.appendBatch rows s.store).2 }
  | .verify intact => { s with store := (LedgerStore.verify { s.store with intact := intact }).2 }
  | .restart => { s with lastRolloverDay := none }

def start (e₀ budgetEquity : ℤ) : TickDesk where
  store := { initialEquity := some e₀ }
  budgetEquityLamports := budgetEquity

/-- The rows a step appends are timely. -/
def Timely (s : TickDesk) (a : TickAction) : Prop :=
  PumpGrok.Timely s.store.read ((s.step a).store.read.drop s.store.read.length)

instance (s : TickDesk) (a : TickAction) : Decidable (s.Timely a) :=
  inferInstanceAs (Decidable (PumpGrok.Timely _ _))

/-! ### What a step appends -/

/-- Rows without a rollover, or the rollover of a day with the equity folded then. -/
inductive TickBatch (e₀ : ℤ) (st : LedgerStore) : List Row → Prop
  | write {rows : List Row} (h : ∀ r ∈ rows, r.payload.isRollover = false) : TickBatch e₀ st rows
  | rollover {r : Row} {p : DailyRollover} (day : ℤ) (hp : r.payload = .dailyRollover p)
      (he : p.dayStartEquityLamports = equityLamports (replay (initialState e₀ day) st.read)) :
      TickBatch e₀ st [r]

variable {e₀ : ℤ} {s : TickDesk}

lemma emitRollover_store (s : TickDesk) (source : EventSource) (now : ℤ) :
    (s.emitRollover source now).store = s.store ∨
      (s.emitRollover source now).store =
        (LedgerStore.append (s.rolloverRow source now) s.store).2 := by
  unfold emitRollover
  split_ifs
  · exact .inl rfl
  · right
    split <;> simp_all

lemma step_grows (a : TickAction) (he : s.store.initialEquity = some e₀) :
    ∃ st b, s.store.Grows (TickBatch e₀) st ∧ (s.step a).store = { st with intact := b } := by
  cases a with
  | beginTick source now =>
    refine ⟨(s.emitRollover source now).store, (s.emitRollover source now).store.intact, ?_, rfl⟩
    rcases emitRollover_store s source now with h | h
    · rw [h]
      exact .refl
    · rw [h]
      refine LedgerStore.grows_append fun _ => .rollover (utcDay now) rfl ?_
      show equityLamports (replay (initialState s.initialEquity _) _) = _
      rw [initialEquity, he]
      rfl
  | write rows h => exact ⟨_, _, LedgerStore.grows_appendBatch fun _ => .write h, rfl⟩
  | verify intact =>
    refine ⟨{ s.store with inconsistent := !intact }, intact, .marked _ .refl, ?_⟩
    cases intact <;> rfl
  | restart => exact ⟨s.store, s.store.intact, .refl, rfl⟩

/-! ### Runs -/

lemma equity_day (e₀ day day' : ℤ) (es : List Event) :
    equityLamports (replay (initialState e₀ day) es) =
      equityLamports (replay (initialState e₀ day') es) := by
  obtain ⟨day'', h⟩ := replay_day (initialState e₀ day') day es
  have hon : initialState e₀ day = (initialState e₀ day').onDay day := rfl
  rw [hon, h, equity_onDay]

lemma priced_commit {day : ℤ} {st : LedgerStore} {rows : List Row}
    (h : Priced (initialState e₀ day) st.read) (hb : TickBatch e₀ st rows) :
    Priced (initialState e₀ day) (st.commit rows).read := by
  rw [LedgerStore.read_commit]
  cases hb with
  | write hw =>
    refine h.append fun e he => ?_
    have hmem : e.payload ∈ (LedgerStore.stamp (st.count + 1) rows).map (·.payload) :=
      List.mem_map_of_mem he
    rw [LedgerStore.stamp_payloads] at hmem
    obtain ⟨r, hr, heq⟩ := List.mem_map.mp hmem
    rw [← heq]
    exact hw r hr
  | @rollover r p day' hp he =>
    intro front e q hpre hq
    rcases List.prefix_concat_iff.mp hpre with heq | hold
    · obtain ⟨rfl, hlast⟩ := List.append_inj' heq rfl
      have hpay : e.payload = r.payload := by rw [List.singleton_inj.mp hlast]
      rw [hpay, hp] at hq
      cases hq
      rw [he, equity_day]
    · exact h front e q hold hq

/-- **Counters follow the day** in a run whose rows are timely: after every row they are the totals
of the rows stamped on its day, and the day started before its first fill. -/
theorem counters_follow_day (e₀ budgetEquity day : ℤ) (as : List TickAction)
    (hc : Runs.Along step Timely (start e₀ budgetEquity) as) :
    Attributed (initialState e₀ day) (Runs.after step (start e₀ budgetEquity) as).store.read := by
  have hinv : ∀ (s : TickDesk) (a : TickAction), (s.store.initialEquity = some e₀ ∧
      Priced (initialState e₀ day) s.store.read ∧ PumpGrok.Timely [] s.store.read) → s.Timely a →
        (s.step a).store.initialEquity = some e₀ ∧
          Priced (initialState e₀ day) (s.step a).store.read ∧
          PumpGrok.Timely [] (s.step a).store.read := by
    rintro s a ⟨he, hp, ht⟩ ha
    obtain ⟨st, b, hg, hst⟩ := step_grows a he
    have hread : (s.step a).store.read = st.read := by
      rw [hst]
      rfl
    refine ⟨?_, ?_, ?_⟩
    · rw [hst]
      exact hg.initialEquity_eq.trans he
    · rw [hread]
      exact hg.invariant (I := fun st => Priced (initialState e₀ day) st.read) (fun _ _ h => h)
        (fun _ _ h _ hb => priced_commit h hb) hp
    · obtain ⟨new, hnew⟩ := hg.read_extends
      have hdrop : (s.step a).store.read.drop s.store.read.length = new := by
        rw [hread, ← hnew, List.drop_left]
      unfold Timely at ha
      rw [hdrop] at ha
      rw [hread, ← hnew, timely_append]
      exact ⟨ht, ha⟩
  have hstart : Priced (initialState e₀ day) (start e₀ budgetEquity).store.read := by
    intro front e p hpre
    have hnil : front ++ [e] <+: [] := hpre
    simp at hnil
  have hrun := Runs.invariant_along (I := fun s : TickDesk => s.store.initialEquity = some e₀ ∧
    Priced (initialState e₀ day) s.store.read ∧ PumpGrok.Timely [] s.store.read) (C := Timely)
    hinv ⟨rfl, hstart, trivial⟩ hc
  have hequity : equityLamports (initialState e₀ day) = e₀ := by
    show e₀ + _ = e₀
    simp [initialState]
  exact attributed_of_timely rfl hequity.symm hrun.2.1 hrun.2.2

/-! ### A sample -/

/-- The rows of a buy that fills. -/
def sampleFill (order : ℕ) (mint : Mint) (ts : ℤ) : List Row :=
  [{ ts := ts
     source := .paper
     key := .fill order
     payload := .fillRecorded
       { orderId := order
         decisionId := some order
         side := .buy
         mint := mint
         filledLamports := 100000000
         filledUnits := 3529253463570
         filledFraction := 1
         priceAvg := 100000000 / 3529253463570
         venueFeeLamports := 1000000
         networkCostLamports := 9000
         cashDeltaLamports := -100009000
         venueTxRef := order } },
   { ts := ts
     source := .paper
     key := .position order
     payload := .positionOpened
       { mint := mint
         priceEntry := 100000000 / 3529253463570
         tokenUnits := 3529253463570
         costBasisLamports := 100009000
         openedTs := ts
         creator := []
         ticketId := ['t'] } }]

lemma sampleFill_rows (order : ℕ) (mint : Mint) (ts : ℤ) :
    ∀ r ∈ sampleFill order mint ts, r.payload.isRollover = false := by
  simp [sampleFill, Payload.isRollover]

def midnight : ℤ := 86400000000

/-- A fill late in one day, the rollover of the next, and a fill after it. -/
def sampleDays : List TickAction :=
  [.beginTick .paper 0,
   .write (sampleFill 1 (List.replicate 32 'a') (midnight - 1)) (sampleFill_rows _ _ _),
   .beginTick .paper midnight,
   .write (sampleFill 2 (List.replicate 32 'b') (midnight + 1)) (sampleFill_rows _ _ _)]

theorem counters_follow_day_sample :
    Attributed (initialState 10000000000 0)
      (Runs.after step (start 10000000000 10000000000) sampleDays).store.read :=
  counters_follow_day 10000000000 10000000000 0 sampleDays (by decide +kernel)

/-- A fill just after midnight, before the tick that rolls the day over. -/
def sampleLateTick : List TickAction :=
  [.beginTick .paper 0,
   .write (sampleFill 1 (List.replicate 32 'a') (midnight + 1)) (sampleFill_rows _ _ _),
   .beginTick .paper (midnight + 2)]

/-- The fill is lost at the rollover. -/
theorem late_tick_loses_fill :
    ¬ ∀ (e₀ budgetEquity day : ℤ) (as : List TickAction),
      Attributed (initialState e₀ day) (Runs.after step (start e₀ budgetEquity) as).store.read := by
  intro h
  have hrow : ((Runs.after step (start 10000000000 10000000000) sampleLateTick).store.read[3]?).any
      (fun e =>
        let front :=
          (Runs.after step (start 10000000000 10000000000) sampleLateTick).store.read.take 3
        decide ((replay (initialState 10000000000 0) (front ++ [e])).counters.of .trades ≠
          totalOn (utcDay e.ts) .trades (initialState 10000000000 0) (front ++ [e]))) = true := by
    decide +kernel
  obtain ⟨e, he, hrow⟩ := (Option.any_eq_true _ _).mp hrow
  have hlast :=
    (h 10000000000 10000000000 0 sampleLateTick _ e (LedgerStore.read_upto he)).1 .trades
  exact of_decide_eq_true hrow hlast

end TickDesk

end PumpGrok
