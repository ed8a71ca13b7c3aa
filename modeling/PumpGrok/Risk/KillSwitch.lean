import PumpGrok.Ledger.Store
import PumpGrok.Lib.PyText

/-!
The kill switch: its sources (environment, latch file, pending alert, ledger), the alert lines
it absorbs, and the ledger row of its first observation.
-/

namespace PumpGrok

open PyText

/-- One poll outcome. -/
structure KillState where
  active : Bool
  source : Option KillOrigin := none
  reason : Text := []
  flattenRequested : Bool := false
  deriving DecidableEq

/-- What becomes of a write of the latch. -/
inductive WriteOutcome where
  | lands
  | refused
  | breaksOff (n : ℕ)
  deriving DecidableEq

/-- The latch file, and what becomes of the next writes; those after them land. -/
structure LatchFile where
  content : Option Text := none
  outcomes : List WriteOutcome := []

namespace LatchFile

/-- Rewrite the file in place: a write that breaks off leaves the start of the text. -/
def writeText (text : Text) (file : LatchFile) : Bool × LatchFile :=
  match file.outcomes with
  | [] => (true, { file with content := some text })
  | .lands :: rest => (true, { content := some text, outcomes := rest })
  | .refused :: rest => (false, { file with outcomes := rest })
  | .breaksOff n :: rest => (false, { content := some (text.take n), outcomes := rest })

/-- Write a second file and put it in the place of the first. -/
def replaceText (text : Text) (file : LatchFile) : Bool × LatchFile :=
  match file.outcomes with
  | [] => (true, { file with content := some text })
  | .lands :: rest => (true, { content := some text, outcomes := rest })
  | .refused :: rest | .breaksOff _ :: rest => (false, { file with outcomes := rest })

end LatchFile

/-- The alert updates sent so far (`none` for a sender that is not allowed), the count of those
committed, and the count the last successful poll reached. -/
structure AlertChannel where
  updates : List (Option Text) := []
  committed : ℕ := 0
  next : ℕ := 0
  reachable : Bool := true
  writable : Bool := true

namespace AlertChannel

def poll (ch : AlertChannel) : List Text × AlertChannel :=
  if ch.reachable then
    ((ch.updates.drop ch.committed).reduceOption, { ch with next := max ch.next ch.updates.length })
  else ([], ch)

def commit (ch : AlertChannel) : AlertChannel :=
  if ch.committed < ch.next ∧ ch.writable then { ch with committed := ch.next } else ch

end AlertChannel

structure KillSwitch where
  envStart : Text := []
  hasPath : Bool := true
  file : LatchFile := {}
  alerts : AlertChannel := {}
  alertLatch : Option (Bool × Text) := none
  pendingLine : Option Text := none
  flattenEscalated : Bool := false

/-- The reason of a command once its words are read: to the end of one line. -/
def killReason (t : Text) : Option Text :=
  if t ≠ [] ∧ '\n' ∉ t then some t else none

/-- `KILL`, an optional `FLATTEN`, and a reason; the match prefers the flag. -/
def killLineReason (line : Text) : Option Text := do
  let rest ← dropPrefix "KILL".toList line
  let rest ← dropSpaces rest
  match (do
      let r ← dropPrefix "FLATTEN".toList rest
      let r ← dropSpaces r
      killReason r) with
  | some r => some r
  | none => killReason rest

/-- An alert line as `(flatten, reason)`. -/
def parseKillLine (line : Text) : Option (Bool × Text) :=
  (killLineReason (strip line)).map fun reason =>
    let second := (takeWord (lstrip (takeWord (strip line)).2)).1
    (second = "FLATTEN".toList, strip reason)

def killFileText (reason : Text) (flatten : Bool) : Text :=
  if flatten then "FLATTEN ".toList ++ reason else reason

def envEngaged (raw : Text) : Bool :=
  strip raw ≠ [] && strip raw ≠ "0".toList && strip raw ≠ "false".toList

/-- The state a stripped first line of the latch file stands for. -/
def fileState (line : Text) : KillState :=
  if line = "FLATTEN".toList ∨ line = "FLATTEN:".toList then
    { active := true, source := some .file, reason := "flatten requested".toList,
      flattenRequested := true }
  else if "FLATTEN ".toList.isPrefixOf line ∨ "FLATTEN:".toList.isPrefixOf line then
    { active := true, source := some .file,
      reason := (line.drop "FLATTEN".toList.length).dropWhile fun c => c = ' ' || c = ':',
      flattenRequested := true }
  else { active := true, source := some .file, reason := line, flattenRequested := false }

namespace KillSwitch

/-- The newest set row not cleared since. -/
def latestSet (events : List Event) : Option KillSwitchSet :=
  events.foldl
    (fun latest e => match e.payload with
      | .killSwitchSet p => some p
      | .killSwitchCleared _ => none
      | _ => latest)
    none

def clearEpoch (events : List Event) : ℕ :=
  events.countP fun e => match e.payload with
    | .killSwitchCleared _ => true
    | _ => false

def isFile (k : KillSwitch) : Bool := k.hasPath && k.file.content.isSome

/-- Write the pending line to the latch. -/
def savePending (k : KillSwitch) : Bool × KillSwitch :=
  match k.pendingLine with
  | none => (false, k)
  | some raw =>
    if !k.hasPath then (false, k)
    else
      match parseKillLine raw with
      | none => (true, { k with alertLatch := none, pendingLine := none })
      | some (flatten, reason) =>
        match k.file.writeText (killFileText reason flatten) with
        | (true, file) =>
          (true, { k with
            file := file
            alertLatch := some (flatten, reason)
            pendingLine := none })
        | (false, file) => (false, { k with file := file })

/-- Escalate an engaged switch to flatten, in the latch file first. -/
def escalate (reason : Text) (k : KillSwitch) : Bool × KillSwitch :=
  if k.hasPath then
    match k.file.replaceText (killFileText reason true) with
    | (true, file) =>
      (true, { k with
        file := file
        alertLatch := some (true, reason)
        flattenEscalated := true })
    | (false, file) => (false, { k with file := file })
  else (true, { k with flattenEscalated := true })

/-- Act on one line; false stops the poll without a commit. -/
def absorbLine (raw : Text) (k : KillSwitch) : Bool × KillSwitch :=
  match parseKillLine raw with
  | none => (true, k)
  | some (flatten, reason) =>
    if envEngaged k.envStart || k.isFile then
      if flatten && !k.flattenEscalated then escalate reason k else (true, k)
    else if !k.hasPath then (true, k)
    else savePending { k with pendingLine := some raw }

def absorbLines : List Text → KillSwitch → Bool × KillSwitch
  | [], k => (true, k)
  | raw :: rest, k =>
    match absorbLine raw k with
    | (true, k') => absorbLines rest k'
    | (false, k') => (false, k')

def absorbPolled (k : KillSwitch) : KillSwitch :=
  let polled := k.alerts.poll
  match absorbLines (polled.1.flatMap splitLines) { k with alerts := polled.2 } with
  | (true, k') => { k' with alerts := k'.alerts.commit }
  | (false, k') => k'

def absorbAlerts (k : KillSwitch) : KillSwitch :=
  if k.pendingLine.isSome then
    match k.savePending with
    | (true, k') => k'.absorbPolled
    | (false, k') => k'
  else k.absorbPolled

/-- The first line of the latch file, stripped. -/
def firstLine (k : KillSwitch) : Text :=
  strip ((splitLines (k.file.content.getD [])).headD [])

def fileRequestsFlatten (k : KillSwitch) : Bool :=
  k.isFile && !(splitLines (k.file.content.getD [])).isEmpty &&
    (fileState k.firstLine).flattenRequested

/-- The pending line as a state. -/
def pendingState (k : KillSwitch) : Option KillState :=
  (k.pendingLine.bind parseKillLine).map fun p =>
    { active := true, source := some .alertCommand, reason := p.2, flattenRequested := p.1 }

def ledgerState (events : List Event) : KillState :=
  match latestSet events with
  | some p =>
    { active := true, source := some p.origin, reason := p.reason,
      flattenRequested := p.flattenRequested }
  | none => { active := false }

/-- The environment beats the latch file, the file a pending line, and that the ledger. -/
def engagedState (events : List Event) (k : KillSwitch) : KillState × KillSwitch :=
  if envEngaged k.envStart then
    ({ active := true, source := some .env, reason := strip k.envStart,
       flattenRequested := k.fileRequestsFlatten }, k)
  else if k.isFile then
    match k.alertLatch with
    | some (flatten, reason) =>
      if k.firstLine = killFileText reason flatten then
        ({ active := true, source := some .alertCommand, reason := reason,
           flattenRequested := flatten }, k)
      else (fileState k.firstLine, k)
    | none => (fileState k.firstLine, k)
  else
    match k.pendingState with
    | some state => (state, k)
    | none => (ledgerState events, { k with alertLatch := none })

/-- The switch now; an escalation lasts until nothing is engaged. -/
def poll (events : List Event) (k : KillSwitch) : KillState × KillSwitch :=
  let (state, k') := k.engagedState events
  if !state.active then (state, { k' with flattenEscalated := false })
  else if k'.flattenEscalated && !state.flattenRequested then
    ({ state with flattenRequested := true }, k')
  else (state, k')

/-- Record the first observation, and again when a flatten escalates it. -/
def observe (ts : ℤ) (source : EventSource) : Prog (KillSwitch × LedgerStore) Exc Unit :=
  fun s =>
    let (state, k) := s.1.poll s.2.read
    let write :=
      match latestSet s.2.read with
      | none => true
      | some p => !p.flattenRequested && state.flattenRequested
    if !state.active || !write then (.ok (), k, s.2)
    else
      let written := LedgerStore.appendSuppressing [.integrityError]
        { ts := ts
          source := source
          key := .killSwitch (state.source.getD .env) state.reason (utcDay ts)
            state.flattenRequested (clearEpoch s.2.read)
          payload := .killSwitchSet
            { origin := state.source.getD .env
              reason := state.reason
              flattenRequested := state.flattenRequested } } s.2
      (written.1, k, written.2)

end KillSwitch

end PumpGrok
