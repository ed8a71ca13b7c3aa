import PumpGrok.Ledger.Growth
import PumpGrok.Lib.Runs
import PumpGrok.Risk.Latch

/-!
The writers of the kill switch over one ledger and one latch file: the operator tool, the desk's
process with its alert channel, a hand on the latch file, and the clearing command.
-/

namespace PumpGrok

open PyText

/-! ### The tool -/

inductive KillAction where
  | set
  | flattenRequest
  deriving DecidableEq

structure KillSwitchIn where
  action : KillAction
  reason : Text
  reason_ge : 1 ≤ reason.length
  reason_le : reason.length ≤ 500

def KillSwitchIn.flatten (inp : KillSwitchIn) : Bool := inp.action = .flattenRequest

def utcMinute (ts : ℤ) : ℤ := ts / 60000000

/-- The key of the tool's row: action, reason and minute. -/
def killSwitchKey (inp : KillSwitchIn) (ts : ℤ) : Key :=
  .killTool inp.flatten inp.reason (utcMinute ts)

/-- The desk's kill switch and its ledger. -/
structure KillDesk where
  switch : KillSwitch := {}
  ledger : LedgerStore := {}

namespace KillDesk

def onLedger {α : Type} (m : Prog LedgerStore Exc α) : Prog KillDesk Exc α :=
  Prog.on KillDesk.ledger (fun l s => { s with ledger := l }) m

def toolRow (inp : KillSwitchIn) (ts : ℤ) : Row where
  ts := ts
  source := .paper
  key := killSwitchKey inp ts
  payload := .killSwitchSet
    { origin := .tool
      reason := inp.reason
      flattenRequested := inp.flatten
      setBy := "risk.kill_switch".toList }

def writeLatch (text : Text) : Prog KillDesk Exc Unit := fun s =>
  if !s.switch.hasPath then (.ok (), s)
  else
    let (written, file) := s.switch.file.writeText text
    (if written then .ok () else .error .osError,
      { s with switch := { s.switch with file := file } })

/-- Append the set row, then write the latch file. -/
def runKillSwitch (inp : KillSwitchIn) (ts : ℤ) : Prog KillDesk Exc Unit := do
  onLedger (LedgerStore.appendSuppressing [.integrityError] (toolRow inp ts))
  writeLatch (killFileText inp.reason inp.flatten)

/-! ### Clearing -/

/-- A seat's id, `bot-0`, a digit, a dash and a name. -/
def isSeatId (name : Text) : Bool :=
  match dropPrefix "bot-0".toList name with
  | some (d :: '-' :: rest) =>
    let seat := if rest.getLast? = some '\n' then rest.dropLast else rest
    d.isDigit && seat ≠ [] && seat.all fun c => c.isLower || c = '-'
  | _ => false

def isHuman : Signer → Bool
  | .human name => !isSeatId name
  | _ => false

/-- Sources the clearing command sees: its own environment and the latch file. -/
def liveSources (env : Text) (s : KillDesk) : Bool := envEngaged env || s.switch.isFile

def clearedRow (approval : ApprovalRecord) (reason : Text) (ts : ℤ) (source : EventSource) :
    Row where
  ts := ts
  source := source
  key := .killSwitch .clear reason (utcDay ts) false 0
  payload := .killSwitchCleared { clearedBy := approval.approvedBy, approvalId := approval.id }

def consumedRow (approval : ApprovalRecord) (reason : Text) (ts : ℤ) (source : EventSource) :
    Row where
  ts := ts
  source := source
  key := .consumed approval.id
  payload := .approvalRecorded
    { id := approval.id
      kind := approval.kind
      approvedBy := approval.approvedBy
      at_ := approval.at_
      ticketId := approval.ticketId.getD []
      mint := approval.mint.getD []
      sizeLamports := approval.sizeLamports.getD 0
      tokenUnits := approval.tokenUnits.getD 0
      maxSlippageBps := approval.maxSlippageBps.getD 0
      exitRuleId := approval.exitRuleId
      rawMessage := reason
      consumed := true }

/-- Append the cleared row and the consumed approval, for a human and with no live source. -/
def requestClear (approval : ApprovalRecord) (reason : Text) (ts : ℤ) (source : EventSource)
    (env : Text) : Prog KillDesk Exc Unit := do
  Prog.raiseIf (isHuman approval.approvedBy = false) .clearRefused
  Prog.raiseIf (approval.kind ≠ .killswitchClear) .clearRefused
  let live ← Prog.read (liveSources env)
  Prog.raiseIf (live = true) .clearRefused
  let taken ← Prog.read fun s =>
    (s.ledger.byKey (clearedRow approval reason ts source).key).isSome ||
      (s.ledger.byKey (consumedRow approval reason ts source).key).isSome
  Prog.raiseIf (taken = true) .clearRefused
  let _ ← onLedger (LedgerStore.appendBatch
    [clearedRow approval reason ts source, consumedRow approval reason ts source])
  pure ()

/-! ### The desk's process -/

def observe (ts : ℤ) (source : EventSource) : Prog KillDesk Exc Unit :=
  Prog.on (fun s => (s.switch, s.ledger)) (fun p _ => { switch := p.1, ledger := p.2 })
    (KillSwitch.observe ts source)

def polled (s : KillDesk) : KillState := (s.switch.poll s.ledger.read).1

/-- The process stops, and one is started. -/
def restarted (env : Text) (s : KillDesk) : KillDesk where
  switch := KillSwitch.started env s.switch.hasPath s.switch.file s.switch.alerts
  ledger := { s.ledger with inconsistent := false }

end KillDesk

/-- What can happen to the switch: an operation of a writer, a message, or a change of what a write
or a request to the channel meets. -/
inductive KillStep where
  | tool (inp : KillSwitchIn) (ts : ℤ)
  | latch (content : Option Text)
  | disk (outcomes : List WriteOutcome)
  | messages (updates : List (Option Text))
  | channel (reachable writable : Bool)
  | absorb
  | poll
  | observe (ts : ℤ) (source : EventSource)
  | clear (approval : ApprovalRecord) (reason : Text) (ts : ℤ) (source : EventSource) (env : Text)
  | restart (env : Text)
  | verified (intact : Bool)

namespace KillDesk

def step (s : KillDesk) : KillStep → KillDesk
  | .tool inp ts => (runKillSwitch inp ts s).2
  | .latch content =>
    { s with switch := { s.switch with file := { s.switch.file with content := content } } }
  | .disk outcomes =>
    { s with switch := { s.switch with file := { s.switch.file with outcomes := outcomes } } }
  | .messages updates =>
    { s with switch := { s.switch with alerts :=
      { s.switch.alerts with updates := s.switch.alerts.updates ++ updates } } }
  | .channel reachable writable =>
    { s with switch := { s.switch with alerts :=
      { s.switch.alerts with reachable := reachable, writable := writable } } }
  | .absorb => { s with switch := s.switch.absorbAlerts }
  | .poll => { s with switch := (s.switch.poll s.ledger.read).2 }
  | .observe ts source => (observe ts source s).2
  | .clear approval reason ts source env => (requestClear approval reason ts source env s).2
  | .restart env => s.restarted env
  | .verified intact =>
    { s with ledger := (LedgerStore.verify { s.ledger with intact := intact }).2 }

end KillDesk

/-! ### The switch on the ledger -/

namespace KillSwitch

variable {events : List Event} {e : Event}

lemma latestSet_append_singleton (events : List Event) (e : Event) :
    latestSet (events ++ [e]) = match e.payload with
      | .killSwitchSet p => some p
      | .killSwitchCleared _ => none
      | _ => latestSet events := by
  rw [latestSet, List.foldl_append]
  rfl

lemma clearEpoch_append (es fs : List Event) :
    clearEpoch (es ++ fs) = clearEpoch es + clearEpoch fs := by
  simp [clearEpoch]

end KillSwitch

/-- The folded state's kill switch. -/
def foldedKill (events : List Event) : KillSwitchView :=
  (replay (initialState 0 0) events).killSwitch

lemma handle_killSwitch (state : LedgerState) (ts : ℤ) (p : Payload) :
    (handle state ts p).killSwitch = match p with
      | .killSwitchSet q =>
        { active := true, origin := some q.origin, since := some ts,
          flattenRequested := q.flattenRequested }
      | .killSwitchCleared _ => {}
      | _ => state.killSwitch := by
  cases p with
  | positionOpened q =>
    simp only [handle, onPositionOpened]
    split_ifs <;> simp
  | fillRecorded q =>
    simp only [handle, onFill, trackPeak_killSwitch]
    split
    · rfl
    · split_ifs <;> rfl
  | _ => simp [handle, onPositionClosed, onRejected, onMtm, onHaltSet, onHaltCleared, onKillSet,
      onKillCleared, onBreakerTripped, onBreakerReset, onRollover, onApproval]

/-- **The fold's switch** is the newest set row not cleared since. -/
lemma foldedKill_latest (events : List Event) :
    (foldedKill events).active = (KillSwitch.latestSet events).isSome ∧
      (foldedKill events).flattenRequested =
        ((KillSwitch.latestSet events).map KillSwitchSet.flattenRequested).getD false := by
  induction events using List.reverseRecOn with
  | nil => exact ⟨rfl, rfl⟩
  | append_singleton events e ih =>
    have hfold : foldedKill (events ++ [e]) =
        (handle (replay (initialState 0 0) events) e.ts e.payload).killSwitch := by
      simp [foldedKill, replay_append]
    rw [hfold, handle_killSwitch, KillSwitch.latestSet_append_singleton]
    rcases e with ⟨⟨ts, source, key, payload⟩, seq⟩
    cases payload <;> first | exact ih | exact ⟨rfl, rfl⟩

end PumpGrok
