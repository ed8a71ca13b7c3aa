import PumpGrok.Execution.Place
import PumpGrok.Lib.Runs
import PumpGrok.Risk.EngineRows

/-!
The desk as a system: calls in any number, each suspended in one of its awaits, and steps that
resume one of them, start or cancel one, let another writer append a row, or change what the
desk reads from outside.
-/

namespace PumpGrok

/-- A row another writer may append: halts, kills, breaker rows, rollovers, notes, approvals.
Every writer numbers its breaker rows by those on the ledger. -/
structure OtherRow where
  row : Row
  key_free : row.key.isTrade = false
  payload_free : row.payload.isTrade = false

inductive MarkState where
  | waiting (state : LedgerState) (pos : PositionView)
  | finished (outcome : Except Exc (Option Event))

inductive BookState where
  | waiting (b : BookMark) (mint : Mint) (pos : PositionView) (rest : List (Mint × PositionView))
  | finished (outcome : Except Exc (Option Event))

inductive CloseState where
  | waiting
  | finished (outcome : Except Exc CloseStatus)

/-- A call of the adapter. A `place` call's owner token is its index. -/
inductive Call where
  | place (c : PlaceCall) (ownsKey : Bool) (s : PlaceState)
  | mark (mint : Mint) (source : EventSource) (s : MarkState)
  | book (s : BookState)
  | close (mint : Mint) (ticketId : TicketId) (reason : ExitReason) (s : CloseState)

structure Sys where
  world : World
  calls : List Call

/-- What the desk reads from outside. -/
inductive EnvChange where
  | clock (now : ℤ)
  | latchFile (file : LatchFile)
  | alerts (updates : List (Option Text)) (reachable writable : Bool)
  | observeOnly (seats : List Seat)
  | reputation (degraded : Option Bool)
  | reserves (r : Mint → Option (ℤ × ℤ))
  | liveUnmet (unmet : Bool)
  | chain (intact : Bool)

def EnvChange.apply (d : Desk) : EnvChange → Desk
  | .clock now => { d with now := now }
  | .latchFile file => { d with killswitch := { d.killswitch with file := file } }
  | .alerts updates reachable writable =>
    { d with killswitch := { d.killswitch with alerts := { d.killswitch.alerts with
      updates := d.killswitch.alerts.updates ++ updates
      reachable := reachable
      writable := writable } } }
  | .observeOnly seats => { d with observeOnly := seats }
  | .reputation degraded => { d with reputationDegraded := degraded }
  | .reserves r => { d with reserves := r }
  | .liveUnmet unmet => { d with liveUnmet := unmet }
  | .chain intact => { d with store := { d.store with intact := intact } }

inductive Action where
  | startPlace (c : PlaceCall)
  | curve0 (i : ℕ) (curve : Option CurveSnapshot) (latency : ℤ) (dropped : Bool)
  | wake (i : ℕ) (overran : Bool)
  | curve1 (i : ℕ) (curve : Option CurveSnapshot)
  | abort (i : ℕ)
  | cancel (order : ℕ)
  | startMark (mint : Mint) (source : EventSource)
  | markCurve (i : ℕ) (curve : Option CurveSnapshot)
  | startBook (source : EventSource)
  | bookCurve (i : ℕ) (curve : Option CurveSnapshot)
  | startClose (mint : Mint) (ticketId : TicketId) (reason : ExitReason)
  | closeCurve (i : ℕ) (curve : Option CurveSnapshot)
  | graduation (mint : Mint) (lastS lastT : ℤ) (source : EventSource)
  | blind (mint : Mint) (source : EventSource)
  | append (other : OtherRow)
  | tick (ts : ℤ) (source : EventSource)
  | miss (source : EventSource)
  | pollKill (source : EventSource)
  | verify
  | env (e : EnvChange)

namespace Sys

def withDesk (s : Sys) (d : Desk) : Sys := { s with world := { s.world with desk := d } }

/-- Run a program for its effect. -/
def perform {α : Type} (s : Sys) (m : Prog World Exc α) : Sys := { s with world := (m s.world).2 }

def setCall (s : Sys) (i : ℕ) (c : Call) (w : World) : Sys :=
  { world := w, calls := s.calls.set i c }

def addCall (s : Sys) (c : Call) (w : World) : Sys := { world := w, calls := s.calls ++ [c] }

/-- Start a `place` call: claim its key, then run to the first await. -/
def startPlace (cfg : DeskConfig) (s : Sys) (c : PlaceCall) : Sys :=
  let ownsKey : Bool := c.key ∉ s.world.mem.activePlaces
  let w := { s.world with mem :=
    { s.world.mem with activePlaces := insert c.key s.world.mem.activePlaces } }
  let r := runPlace cfg c s.calls.length ownsKey (placeStart cfg c) w
  s.addCall (.place c ownsKey r.1) r.2

/-- Resume a `place` call with the stretch of its await, if it is suspended in that await. -/
def resumePlace (cfg : DeskConfig) (s : Sys) (i : ℕ)
    (stretch : PlaceCall → Wait → Option (Prog World Exc Next)) : Sys :=
  match s.calls[i]? with
  | some (.place c ownsKey (.waiting wait)) =>
    match stretch c wait with
    | none => s
    | some m =>
      let r := runPlace cfg c i ownsKey m s.world
      s.setCall i (.place c ownsKey r.1) r.2
  | _ => s

def curve0Stretch (cfg : DeskConfig) (i : ℕ) (curve : Option CurveSnapshot) (latency : ℤ)
    (dropped : Bool) (c : PlaceCall) : Wait → Option (Prog World Exc Next)
  | .curve0 size => some (placeCurve0 cfg i c size curve latency dropped)
  | _ => none

def wakeStretch (cfg : DeskConfig) (overran : Bool) (c : PlaceCall) :
    Wait → Option (Prog World Exc Next)
  | .sleep p quoted => some (placeWake cfg c p quoted overran)
  | _ => none

def curve1Stretch (cfg : DeskConfig) (curve : Option CurveSnapshot) (c : PlaceCall) :
    Wait → Option (Prog World Exc Next)
  | .curve1 p quoted => some (placeCurve1 cfg c p quoted curve)
  | _ => none

/-- Cancel a coroutine at its await. -/
def abort (cfg : DeskConfig) (s : Sys) (i : ℕ) : Sys :=
  match s.calls[i]? with
  | some (.place _ _ (.waiting _)) =>
    s.resumePlace cfg i fun _ _ => some (Prog.raise .taskCancelled)
  | some (.mark mint source (.waiting _ _)) =>
    s.setCall i (.mark mint source (.finished (.error .taskCancelled))) s.world
  | some (.book (.waiting _ _ _ _)) =>
    s.setCall i (.book (.finished (.error .taskCancelled))) s.world
  | some (.close mint ticketId reason .waiting) =>
    s.setCall i (.close mint ticketId reason (.finished (.error .taskCancelled))) s.world
  | _ => s

def startMark (cfg : DeskConfig) (s : Sys) (mint : Mint) (source : EventSource) : Sys :=
  let state := s.world.desk.fold cfg
  match markable state mint with
  | none => s.addCall (.mark mint source (.finished (.ok none))) s.world
  | some pos => s.addCall (.mark mint source (.waiting state pos)) s.world

def markCurve (cfg : DeskConfig) (s : Sys) (i : ℕ) (curve : Option CurveSnapshot) : Sys :=
  match s.calls[i]? with
  | some (.mark mint source (.waiting state pos)) =>
    let r := markToMarket cfg mint source state pos curve s.world
    s.setCall i (.mark mint source (.finished r.1)) r.2
  | _ => s

/-- Suspend a book mark in its next reading, or append its row. -/
def nextBook (b : BookMark) (w : World) : BookState × World :=
  match b.pending with
  | (mint, pos) :: rest => (.waiting b mint pos rest, w)
  | [] =>
    let r := appendMarkRow b w
    (.finished r.1, r.2)

def startBook (cfg : DeskConfig) (s : Sys) (source : EventSource) : Sys :=
  let state := s.world.desk.fold cfg
  let held := markableAll state
  if held = [] then s.addCall (.book (.finished (.ok none))) s.world
  else
    let b : BookMark :=
      { source := source, state := state, held := held, startedAt := s.world.desk.now,
        pending := held }
    let r := nextBook b s.world
    s.addCall (.book r.1) r.2

def bookCurve (cfg : DeskConfig) (s : Sys) (i : ℕ) (curve : Option CurveSnapshot) : Sys :=
  match s.calls[i]? with
  | some (.book (.waiting b mint pos rest)) =>
    match priceOne cfg b mint pos rest curve s.world with
    | (.ok b', w) =>
      let r := nextBook b' w
      s.setCall i (.book r.1) r.2
    | (.error x, w) => s.setCall i (.book (.finished (.error x))) w
  | _ => s

def startClose (s : Sys) (mint : Mint) (ticketId : TicketId) (reason : ExitReason) : Sys :=
  match closeStart reason s.world with
  | (.ok none, w) => s.addCall (.close mint ticketId reason .waiting) w
  | (.ok (some status), w) =>
    s.addCall (.close mint ticketId reason (.finished (.ok status))) w
  | (.error x, w) => s.addCall (.close mint ticketId reason (.finished (.error x))) w

def closeCurve (cfg : DeskConfig) (s : Sys) (i : ℕ) (curve : Option CurveSnapshot) : Sys :=
  match s.calls[i]? with
  | some (.close mint ticketId reason .waiting) =>
    let r := closePosition cfg mint ticketId reason curve s.world
    s.setCall i (.close mint ticketId reason (.finished r.1)) r.2
  | _ => s

/-- The engine's own kill poll: absorb, poll, record. -/
def pollKillSources (source : EventSource) : Prog Desk Exc Unit := do
  Prog.modify fun d => { d with killswitch := d.killswitch.absorbAlerts }
  let _ ← pollKill source
  pure ()

def step (cfg : DeskConfig) (s : Sys) : Action → Sys
  | .startPlace c => s.startPlace cfg c
  | .curve0 i curve latency dropped =>
    s.resumePlace cfg i (curve0Stretch cfg i curve latency dropped)
  | .wake i overran => s.resumePlace cfg i (wakeStretch cfg overran)
  | .curve1 i curve => s.resumePlace cfg i (curve1Stretch cfg curve)
  | .abort i => s.abort cfg i
  | .cancel order => { s with world := (PumpGrok.cancel order s.world).2 }
  | .startMark mint source => s.startMark cfg mint source
  | .markCurve i curve => s.markCurve cfg i curve
  | .startBook source => s.startBook cfg source
  | .bookCurve i curve => s.bookCurve cfg i curve
  | .startClose mint ticketId reason => s.startClose mint ticketId reason
  | .closeCurve i curve => s.closeCurve cfg i curve
  | .graduation mint lastS lastT source =>
    s.perform (closeOnGraduation cfg mint lastS lastT source)
  | .blind mint source => s.perform (checkBlind cfg mint source)
  | .append other =>
    if other.row.numbered s.world.desk.store then
      s.perform (World.onStore (LedgerStore.append other.row))
    else s
  | .tick ts source =>
    s.perform (World.onDesk fun d =>
      Desk.onBreakers (BreakerSet.noteTick d.now ts d.now source) d)
  | .miss source =>
    s.perform (World.onDesk fun d => Desk.onBreakers (BreakerSet.noteMiss d.now d.now source) d)
  | .pollKill source => s.perform (World.onDesk (pollKillSources source))
  | .verify => s.perform (World.onStore LedgerStore.verify)
  | .env e => s.withDesk (e.apply s.world.desk)

/-- A desk on an empty ledger, with no call running and any kill switch. -/
def start (now initialEquity : ℤ) (killswitch : KillSwitch) : Sys where
  world :=
    { desk :=
        { store := { initialEquity := some initialEquity }
          now := now
          nextId := 0
          killswitch := killswitch }
      mem := {} }
  calls := []

/-! ### A sample desk

A paper desk that approves its own orders, and the calls its sample runs are made of. -/

def sampleConfig : DeskConfig where
  budget := {}
  limits := {}
  mode := .paper
  autonomy := .autonomousPaper
  scanKillVerdicts := false
  fees := {}
  source := .paper

/-- A budget that may go whole into one trade, or one token. -/
def wholeBudget : RiskBudget where
  maxTradeFraction := 1
  maxTokenFraction := 1
  partialFillFraction := 1

def sampleMint (m : Char) : Mint := List.replicate 32 m

def sampleBuy (m : Char) (decision : ℕ) : PlaceCall where
  seat := some .sniper
  request :=
    { ticketId := ['t']
      mint := sampleMint m
      side := .buy
      decisionId := decision
      sizeLamports := some 100000000
      tokenUnits := none
      maxSlippageBps := 300
      approvalId := 0
      exitReason := none
      mint_ge := by simp [sampleMint]
      mint_le := by simp [sampleMint]
      size_pos := by simp
      units_pos := by simp
      slippage_ge := by norm_num
      slippage_le := by norm_num
      buy_sized := by simp
      sell_sized := by simp
      exit_sells := by simp }

lemma forall_mem_some_pos {n : ℤ} (h : 0 < n) : ∀ k ∈ some n, 0 < k := by
  simpa using h

/-- The sample buy of another size. -/
def sampleSized (n : ℤ) (h : 0 < n) : PlaceCall where
  seat := some .sniper
  request :=
    { (sampleBuy 'a' 1).request with
      sizeLamports := some n
      size_pos := forall_mem_some_pos h
      buy_sized := by simp
      sell_sized := by simp [sampleBuy] }

def sampleSell (m : Char) (decision : ℕ) (units : ℤ) (h : 0 < units) : PlaceCall where
  seat := some .exit
  exitReason := some (.rule .takeProfit)
  request :=
    { ticketId := ['t']
      mint := sampleMint m
      side := .sell
      decisionId := decision
      sizeLamports := none
      tokenUnits := some units
      maxSlippageBps := 300
      approvalId := 0
      exitReason := none
      mint_ge := by simp [sampleMint]
      mint_le := by simp [sampleMint]
      size_pos := by simp
      units_pos := forall_mem_some_pos h
      slippage_ge := by norm_num
      slippage_le := by norm_num
      buy_sized := by simp
      sell_sized := by simp
      exit_sells := by simp }

lemma sample_units_pos : (0 : ℤ) < 1000000000000 := by norm_num

def sampleCurve : CurveSnapshot := { sLamports := 30000000000, tUnits := 1073000000000000 }

/-- The sample desk as it opens, with the sample curve's reserves. -/
def sampleReserves : Action := .env (.reserves fun _ => some (30000000000, 1073000000000000))

/-- A call started and run through its awaits without delay. -/
def samplePlace (i : ℕ) (c : PlaceCall) : List Action :=
  [.startPlace c, .curve0 i (some sampleCurve) 0 false, .wake i false, .curve1 i (some sampleCurve)]

def sampleStart : Sys := start 0 10000000000 {}

def sampleAfter (as : List Action) : Sys := Runs.after (step sampleConfig) sampleStart as

/-- A buy, a sale of a third of it, and a sale of the rest. -/
def sampleTrades : List Action :=
  sampleReserves :: samplePlace 0 (sampleBuy 'a' 1) ++
    samplePlace 1 (sampleSell 'a' 2 1000000000000 sample_units_pos) ++
    samplePlace 2 (sampleSell 'a' 3 2529253463570 (by norm_num))

end Sys

end PumpGrok
