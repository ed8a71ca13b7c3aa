import PumpGrok.Desk.System
import PumpGrok.Risk.KillDesk

/-!
Halts and the human clear. A clear turns the detection of breaches off for the rest of its day,
whatever was cleared and whatever breach comes after it.
-/

namespace PumpGrok

open Desk

/-! ### The operations -/

/-- Detect fresh daily-loss and drawdown breaches, on a ledger that verifies and is not halted. -/
def evaluateHalts (cfg : DeskConfig) (source : EventSource) : Prog Desk Exc (Option HaltReason) :=
  fun d =>
    match LedgerStore.verify d.store with
    | (.error _, st) => (.ok none, { d with store := st })
    | (.ok _, st) =>
      let d' := { d with store := st }
      let state := d'.fold cfg
      if state.halt.active then (.ok none, d')
      else breach cfg state (equityForHalts cfg state) source d'

def haltClearedRow (approval : ApprovalRecord) (reason : Text) (ts : ℤ) (source : EventSource) :
    Row where
  ts := ts
  source := source
  key := .haltClear approval.id
  payload := .haltCleared
    { reason := reason, clearedBy := approval.approvedBy, approvalId := approval.id }

/-- The cleared row, then the consumed approval. -/
def haltClearRows (approval : ApprovalRecord) (reason : Text) (ts : ℤ) (source : EventSource) :
    List Row :=
  [haltClearedRow approval reason ts source, KillDesk.consumedRow approval reason ts source]

/-- Clear the halt, for a human and while one is latched. -/
def requestHaltClear (cfg : DeskConfig) (approval : ApprovalRecord) (reason : Text)
    (source : EventSource) : Prog Desk Exc Unit := do
  Prog.raiseIf (KillDesk.isHuman approval.approvedBy = false) .valueError
  Prog.raiseIf (approval.kind ≠ .haltClear) .valueError
  let active ← Prog.read fun d => (d.fold cfg).halt.active
  Prog.raiseIf (active = false) .valueError
  let taken ← Prog.read fun d => (d.store.byKey (.consumed approval.id)).isSome
  Prog.raiseIf (taken = true) .valueError
  let ts ← Prog.read Desk.now
  let _ ← Desk.onStore (LedgerStore.appendBatch (haltClearRows approval reason ts source))
  pure ()

def exitHaltRow (equity ts : ℤ) (source : EventSource) : Row where
  ts := ts
  source := source
  key := .halt .manual (utcDay ts)
  payload := .haltSet
    { reason := .manual
      detail := .other "exit seat observe-only".toList
      equityLamports := equity
      dayStartEquityLamports := equity }

/-- The exit seat is unmanaged: halt. A failed append is only logged. -/
def appendExitHalt (source : EventSource) : Prog Desk Exc Unit := fun d =>
  match d.store.initialEquity with
  | none => (.error .corruptState, d)
  | some equity =>
    (.ok (), { d with store := (LedgerStore.append (exitHaltRow equity d.now source) d.store).2 })

/-! ### The machine -/

/-- A step of the desk, or one of the halt operations. -/
inductive HaltAction where
  | desk (a : Action)
  | evaluateHalts (source : EventSource)
  | requestHaltClear (approval : ApprovalRecord) (reason : Text) (source : EventSource)
  | appendExitHalt (source : EventSource)

namespace HaltDesk

def step (cfg : DeskConfig) (s : Sys) : HaltAction → Sys
  | .desk a => s.step cfg a
  | .evaluateHalts source => s.withDesk (PumpGrok.evaluateHalts cfg source s.world.desk).2
  | .requestHaltClear approval reason source =>
    s.withDesk (PumpGrok.requestHaltClear cfg approval reason source s.world.desk).2
  | .appendExitHalt source => s.withDesk (PumpGrok.appendExitHalt source s.world.desk).2

end HaltDesk

/-! ### Breaches -/

def dayLoss (cfg : DeskConfig) (state : LedgerState) : ℤ :=
  state.dayStartEquityLamports - equityForHalts cfg state

def drawdownOf (cfg : DeskConfig) (state : LedgerState) : ℚ :=
  let peak := state.peakEquityLamports
  if 0 < peak then (peak - equityForHalts cfg state) / peak else 0

/-- The breach a halt reason names is in force. -/
def InForce (cfg : DeskConfig) (state : LedgerState) : HaltReason → Prop
  | .dailyLoss =>
    (state.dayStartEquityLamports : ℚ) * cfg.budget.dailyLossHaltFraction ≤ dayLoss cfg state
  | .drawdown => cfg.budget.drawdownHaltFraction ≤ drawdownOf cfg state
  | _ => False

instance (cfg : DeskConfig) (state : LedgerState) (r : HaltReason) :
    Decidable (InForce cfg state r) := by
  unfold InForce
  split <;> infer_instance

def Payload.isHaltCleared : Payload → Bool
  | .haltCleared _ => true
  | _ => false

/-- A halt was cleared earlier in the day, and a breach that was not in force then is now. -/
structure FreshBreach (cfg : DeskConfig) (d : Desk) (r : HaltReason) (front : List Event)
    (e : Event) (rest : List Event) : Prop where
  rows : d.store.read = front ++ e :: rest
  cleared : e.payload.isHaltCleared = true
  today : utcDay e.ts = utcDay d.now
  before : ¬ InForce cfg (replay (initialState
    (d.store.initialEquity.getD cfg.budget.paperEquityLamports) (utcDay e.ts)) (front ++ [e])) r
  now : InForce cfg (d.fold cfg) r

/-- A halt row of a reason was appended. -/
def Halted (r : HaltReason) (d d' : Desk) : Prop :=
  ∃ e p, d'.store.read = d.store.read ++ [e] ∧ e.payload = .haltSet p ∧ p.reason = r

/-- The context of a check has the ledger as it is. -/
structure Current (cfg : DeskConfig) (d : Desk) (c : StepCtx) : Prop where
  state : c.state = d.fold cfg
  equity : c.equity = equityForHalts cfg c.state

variable {cfg : DeskConfig} {d : Desk}

lemma cleared_mem {es : List Event} {e : Event} {day : ℤ} (he : e ∈ es)
    (hc : e.payload.isHaltCleared = true) (hd : utcDay e.ts = day) :
    clearedToday es day = true := by
  unfold clearedToday
  refine List.any_eq_true.mpr ⟨e, he, ?_⟩
  cases hp : e.payload <;> simp_all [Payload.isHaltCleared]

lemma FreshBreach.cleared_today {r : HaltReason} {front rest : List Event} {e : Event}
    (h : FreshBreach cfg d r front e rest) : clearedToday d.store.read (utcDay d.now) = true := by
  have hmem : e ∈ d.store.read := by
    rw [h.rows]
    simp
  exact cleared_mem hmem h.cleared h.today

/-- On a cleared day nothing is detected. -/
lemma detectBreach_cleared {state : LedgerState} {equity ts : ℤ} {source : EventSource}
    {st : LedgerStore} (h : clearedToday st.read (utcDay ts) = true) :
    detectBreach cfg state equity ts source st = (.ok none, st) := by
  unfold detectBreach
  exact if_pos h

lemma breach_cleared {state : LedgerState} {equity : ℤ} {source : EventSource}
    (h : clearedToday d.store.read (utcDay d.now) = true) :
    breach cfg state equity source d = (.ok none, d) := by
  have hd : detectBreach cfg state equity d.now source d.store = (.ok none, d.store) :=
    detectBreach_cleared h
  show (_, _) = _
  rw [hd]

lemma verify_read (st : LedgerStore) : (LedgerStore.verify st).2.read = st.read := by
  unfold LedgerStore.verify
  split_ifs <;> rfl

/-- `evaluate_halts` on a cleared day. -/
lemma evaluateHalts_cleared (cfg : DeskConfig) (source : EventSource)
    (h : clearedToday d.store.read (utcDay d.now) = true) :
    (evaluateHalts cfg source d).1 = .ok none ∧
      (evaluateHalts cfg source d).2.store.read = d.store.read := by
  have hread := verify_read d.store
  unfold evaluateHalts
  rcases hv : LedgerStore.verify d.store with ⟨x | u, st⟩
  · rw [hv] at hread
    exact ⟨rfl, hread⟩
  · rw [hv] at hread
    dsimp only
    split_ifs
    · exact ⟨rfl, hread⟩
    · rw [breach_cleared (d := { d with store := st }) (by rw [← h]; exact congrArg₂ _ hread rfl)]
      exact ⟨rfl, hread⟩

lemma onDesk_ok {α : Type} {m : Prog Desk Exc α} {a : α} {d' : Desk} {c : StepCtx}
    (h : m d = (.ok a, d')) : Walk.onDesk m (d, c) = (.ok a, d', c) := by
  unfold Walk.onDesk
  rw [h]

/-- The steps of a check on a cleared day. -/
lemma stepDailyLossHalt_cleared {c : StepCtx}
    (h : clearedToday d.store.read (utcDay d.now) = true) :
    ∃ c', stepDailyLossHalt cfg (d, c) = (.ok (), d, c') := by
  refine ⟨{ c with evaluated := c.evaluated ++ [.dailyLossHalt] }, ?_⟩
  unfold stepDailyLossHalt Walk.mark Walk.update Walk.ctx
  rw [Prog.bind_run_ok (Prog.modify_run _ _), Prog.bind_run_ok (Prog.read_run _ _)]
  rw [Prog.bind_run_ok (onDesk_ok (breach_cleared h))]
  rfl

lemma stepDrawdownHalt_cleared {c : StepCtx}
    (h : clearedToday d.store.read (utcDay d.now) = true) :
    ∃ c', stepDrawdownHalt cfg (d, c) = (.ok (), d, c') := by
  refine ⟨{ c with
    evaluated := c.evaluated ++ [.drawdownHalt]
    state := d.fold cfg
    equity := equityForHalts cfg (d.fold cfg) }, ?_⟩
  unfold stepDrawdownHalt Walk.mark Walk.update Walk.ctx
  rw [Prog.bind_run_ok (Prog.modify_run _ _)]
  rw [Prog.bind_run_ok (onDesk_ok (Prog.read_run _ d)), Prog.bind_run_ok (Prog.modify_run _ _),
    Prog.bind_run_ok (Prog.read_run _ _), Prog.bind_run_ok (onDesk_ok (breach_cleared h))]
  rfl

/-! ### Days without a clear -/

/-- A halt row ends up under its key: appended now, or there from before. -/
lemma appendHalt_recorded (row : Row) {st : LedgerStore} (h : st.inconsistent = false) :
    (appendHalt row st).1 = .ok () ∧ (appendHalt row st).2.byKey row.key ≠ none := by
  unfold appendHalt
  rcases LedgerStore.appendSuppressing_run [.integrityError, .ledgerInconsistent] row st with
    ⟨-, -, hr⟩ | ⟨x, hx, hr⟩
  · rw [hr]
    refine ⟨rfl, ?_⟩
    exact LedgerStore.byKey_ne_none_of_mem (e := { row with seq := st.count + 1 })
      (by simp [LedgerStore.stamp])
  · rw [hr]
    obtain ⟨-, ⟨hi, -⟩ | ⟨-, hf, rfl⟩⟩ := LedgerStore.append_error_iff.mp hx
    · rw [h] at hi
      cases hi
    · exact ⟨rfl, fun hn => hf (LedgerStore.fresh_singleton.mpr hn)⟩

lemma appendHalt_then {row : Row} {r : HaltReason} {st : LedgerStore} {day : ℤ}
    (h : st.inconsistent = false) (hk : row.key = .halt r day) :
    let done := (do appendHalt row; pure (some r) : Prog LedgerStore Exc (Option HaltReason)) st
    done.1 = .ok (some r) ∧ done.2.byKey (.halt r day) ≠ none := by
  obtain ⟨hok, hrec⟩ := appendHalt_recorded row h
  have hrun : appendHalt row st = (.ok (), (appendHalt row st).2) := Prod.ext hok rfl
  dsimp only
  rw [Prog.bind_run_ok hrun, ← hk]
  exact ⟨rfl, hrec⟩

/-- A breach in force is detected, unless the day had a clear or no equity to start from. -/
lemma detectBreach_found {state : LedgerState} {ts : ℤ} {source : EventSource} {st : LedgerStore}
    {r : HaltReason} (hi : st.inconsistent = false) (hpos : 0 < state.dayStartEquityLamports)
    (hc : clearedToday st.read (utcDay ts) = false) (hin : InForce cfg state r) :
    ∃ r', InForce cfg state r' ∧
      (detectBreach cfg state (equityForHalts cfg state) ts source st).1 = .ok (some r') ∧
      (detectBreach cfg state (equityForHalts cfg state) ts source st).2.byKey
        (.halt r' (utcDay ts)) ≠ none := by
  unfold detectBreach
  dsimp only
  rw [if_neg (by rw [hc]; exact Bool.false_ne_true), if_neg (not_le.mpr hpos)]
  by_cases hloss : (state.dayStartEquityLamports : ℚ) * cfg.budget.dailyLossHaltFraction ≤
      (state.dayStartEquityLamports - equityForHalts cfg state : ℤ)
  · rw [if_pos hloss]
    exact ⟨.dailyLoss, hloss, appendHalt_then hi rfl⟩
  · have hdown : InForce cfg state .drawdown := by
      cases r with
      | dailyLoss => exact absurd hin hloss
      | drawdown => exact hin
      | _ => exact hin.elim
    have hlimit : cfg.budget.drawdownHaltFraction ≤
        if 0 < state.peakEquityLamports then
          ((state.peakEquityLamports : ℚ) - equityForHalts cfg state) / state.peakEquityLamports
        else 0 := hdown
    rw [if_neg hloss, if_pos hlimit]
    exact ⟨.drawdown, hdown, appendHalt_then hi rfl⟩

/-- **Without a clear** earlier in the day, a breach in force is detected and its halt recorded. -/
theorem uncleared_detected {source : EventSource} {r : HaltReason} (hv : d.store.intact = true)
    (hh : (d.fold cfg).halt.active = false) (hpos : 0 < (d.fold cfg).dayStartEquityLamports)
    (hc : clearedToday d.store.read (utcDay d.now) = false) (hin : InForce cfg (d.fold cfg) r) :
    ∃ r', InForce cfg (d.fold cfg) r' ∧ (evaluateHalts cfg source d).1 = .ok (some r') ∧
      (evaluateHalts cfg source d).2.store.byKey (.halt r' (utcDay d.now)) ≠ none := by
  have hverify : LedgerStore.verify d.store = (.ok (), { d.store with inconsistent := false }) :=
    if_pos hv
  have hfold : Desk.fold cfg { d with store := { d.store with inconsistent := false } } =
      d.fold cfg := rfl
  unfold evaluateHalts
  rw [hverify]
  dsimp only
  rw [hfold, if_neg (by rw [hh]; exact Bool.false_ne_true)]
  have hmarked : ({ d.store with inconsistent := false } : LedgerStore).inconsistent = false := rfl
  exact detectBreach_found hmarked hpos hc hin

/-! ### Days with one -/

namespace HaltDesk

/-- **A cleared day is blind.** In every run, once a halt was cleared in the day, a breach that
begins after the clear is detected neither by `evaluate_halts` nor by the two steps of a check:
nothing is recorded, and no buy is refused for it. -/
theorem cleared_day_blind (cfg : DeskConfig) (now e₀ : ℤ) (killswitch : KillSwitch)
    (as : List HaltAction) (source : EventSource) (r : HaltReason) (front : List Event) (e : Event)
    (rest : List Event) :
    let d := (Runs.after (step cfg) (Sys.start now e₀ killswitch) as).world.desk
    FreshBreach cfg d r front e rest →
      (evaluateHalts cfg source d).1 = .ok none ∧
      (evaluateHalts cfg source d).2.store.read = d.store.read ∧
      ∀ c, Current cfg d c →
        (∃ c', stepDailyLossHalt cfg (d, c) = (.ok (), d, c')) ∧
        ∃ c', stepDrawdownHalt cfg (d, c) = (.ok (), d, c') := by
  intro d h
  have hc := h.cleared_today
  obtain ⟨hnone, hrows⟩ := evaluateHalts_cleared cfg source hc
  exact ⟨hnone, hrows, fun c _ => ⟨stepDailyLossHalt_cleared hc, stepDrawdownHalt_cleared hc⟩⟩

/-! ### A sample -/

/-- A desk that may put its whole equity into one trade. -/
def boldConfig : DeskConfig :=
  { Sys.sampleConfig with
    budget :=
      { Sys.wholeBudget with
        paperEquityLamports := 1000000000
        equity_ge := by norm_num } }

def sampleHaltClear : ApprovalRecord where
  id := 7
  kind := .haltClear
  ticketId := none
  mint := none
  sizeLamports := none
  tokenUnits := none
  maxSlippageBps := none
  exitRuleId := none
  approvedBy := .human "alice".toList
  rawMessage := []
  at_ := 0

/-- The exit seat's halt is cleared; a buy of a tenth of the equity then loses nearly all. -/
def sampleCrash : List HaltAction :=
  [.appendExitHalt .paper, .requestHaltClear sampleHaltClear "exit seat is back".toList .paper] ++
    (Sys.sampleReserves :: Sys.samplePlace 0 (Sys.sampleBuy 'a' 1) ++
      [Action.startMark (Sys.sampleMint 'a') .paper,
        Action.markCurve 1 (some { sLamports := 30000000, tUnits := 1073000000000000 })]).map .desk

def crashed : Desk :=
  (Runs.after (step boldConfig) (Sys.start 0 1000000000 {}) sampleCrash).world.desk

lemma crashed_fresh : ∃ front e rest, FreshBreach boldConfig crashed .dailyLoss front e rest := by
  have hrow : (crashed.store.read[1]?).any (fun e =>
      e.payload.isHaltCleared && utcDay e.ts = utcDay crashed.now &&
        decide (¬ InForce boldConfig (replay (initialState
          (crashed.store.initialEquity.getD boldConfig.budget.paperEquityLamports)
          (utcDay e.ts)) (crashed.store.read.take 1 ++ [e])) .dailyLoss)) = true := by
    decide +kernel
  obtain ⟨e, he, hrow⟩ := (Option.any_eq_true _ _).mp hrow
  obtain ⟨hrow, hbefore⟩ := Bool.and_eq_true_iff.mp hrow
  obtain ⟨hcleared, htoday⟩ := Bool.and_eq_true_iff.mp hrow
  exact ⟨_, e, _, LedgerStore.read_cut he, hcleared, of_decide_eq_true htoday,
    of_decide_eq_true hbefore, by decide +kernel⟩

/-- The crash of the sample passes `evaluate_halts` and both steps. -/
theorem cleared_day_blind_sample :
    let d := (Runs.after (step boldConfig) (Sys.start 0 1000000000 {}) sampleCrash).world.desk
    InForce boldConfig (d.fold boldConfig) .dailyLoss ∧
      (evaluateHalts boldConfig .paper d).1 = .ok none ∧
      (evaluateHalts boldConfig .paper d).2.store.read = d.store.read ∧
      ∀ c, Current boldConfig d c →
        (∃ c', stepDailyLossHalt boldConfig (d, c) = (.ok (), d, c')) ∧
        ∃ c', stepDrawdownHalt boldConfig (d, c) = (.ok (), d, c') := by
  obtain ⟨front, e, rest, hfresh⟩ := crashed_fresh
  exact ⟨hfresh.now, cleared_day_blind boldConfig 0 1000000000 {} sampleCrash .paper .dailyLoss
    front e rest hfresh⟩

/-- A clear of the exit seat's halt also disarms the daily-loss halt of the crash after it. -/
theorem clear_disarms_all :
    ¬ ∀ (cfg : DeskConfig) (now e₀ : ℤ) (killswitch : KillSwitch) (as : List HaltAction)
      (source : EventSource) (r : HaltReason) (front : List Event) (e : Event) (rest : List Event),
      let d := (Runs.after (step cfg) (Sys.start now e₀ killswitch) as).world.desk
      FreshBreach cfg d r front e rest → d.store.intact = true → (d.fold cfg).halt.active = false →
        0 < (d.fold cfg).dayStartEquityLamports → (evaluateHalts cfg source d).1 = .ok (some r) ∧
          Halted r d (evaluateHalts cfg source d).2 := by
  intro h
  obtain ⟨front, e, rest, hfresh⟩ := crashed_fresh
  obtain ⟨hfound, -⟩ :=
    h boldConfig 0 1000000000 {} sampleCrash .paper .dailyLoss front e rest hfresh
    (by decide +kernel) (by decide +kernel) (by decide +kernel)
  have hnone := (evaluateHalts_cleared boldConfig .paper hfresh.cleared_today).1
  have hsame : (Except.ok none : Except Exc (Option HaltReason)) = .ok (some .dailyLoss) :=
    hnone.symm.trans hfound
  cases hsame

end HaltDesk

end PumpGrok
