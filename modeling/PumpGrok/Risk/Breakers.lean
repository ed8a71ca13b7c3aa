import PumpGrok.Ledger.Store

/-!
The three risk breakers and their ledger rows.

A breaker is open for its cooldown, then half-open until a probe or its own recovery closes it.
Its memory is rebuilt from the ledger on restart and aligned with it before every evaluation;
trips and resets are recorded when a reading of the state before and after an operation
differs.
-/

namespace PumpGrok

structure BreakerConfig where
  threshold : ℕ
  cooldown : ℤ
  resetAfterOk : ℕ

def breakerConfig : BreakerName → BreakerConfig
  | .dataStale => { threshold := 3, cooldown := 60000000, resetAfterOk := 3 }
  | .lossVelocity => { threshold := 1, cooldown := 1800000000, resetAfterOk := 1 }
  | .execErrors => { threshold := 3, cooldown := 900000000, resetAfterOk := 1 }

inductive BreakerState where
  | opened
  | halfOpen
  | closed
  deriving DecidableEq

structure Breaker where
  consecutiveFailures : ℕ := 0
  successes : ℕ := 0
  openedAt : Option ℤ := none
  halfOpen : Bool := false
  probeInflight : Bool := false
  trips : ℕ := 0
  deriving DecidableEq

namespace Breaker

variable (c : BreakerConfig) (now : ℤ)

/-- The side effect of reading `is_open`: an open breaker past its cooldown becomes half-open. -/
def expire (b : Breaker) : Breaker :=
  match b.openedAt with
  | none => b
  | some t =>
    if c.cooldown ≤ now - t then
      { b with
        openedAt := none
        halfOpen := true
        consecutiveFailures := c.threshold - 1
        successes := 0 }
    else b

def isOpen (b : Breaker) : Bool := (b.expire c now).openedAt.isSome

def state (b : Breaker) : BreakerState :=
  if b.isOpen c now then .opened
  else if (b.expire c now).consecutiveFailures ≠ 0 then .halfOpen
  else .closed

def trip (at_ : ℤ) (b : Breaker) : Breaker :=
  { b with
    openedAt := some at_
    trips := b.trips + 1
    halfOpen := false
    consecutiveFailures := c.threshold
    successes := 0 }

def recordSuccess (b : Breaker) : Breaker :=
  if c.resetAfterOk ≤ b.successes + 1 then
    { b with consecutiveFailures := 0, successes := 0, openedAt := none, halfOpen := false }
  else { b with successes := b.successes + 1 }

/-- Admit the single half-open probe. -/
def admitProbe (b : Breaker) : Bool × Breaker :=
  let b' := b.expire c now
  if b.isOpen c now then (false, b')
  else if !b'.halfOpen || b'.probeInflight then (false, b')
  else (true, { b' with probeInflight := true })

/-- A successful probe counts, a failed one re-opens. -/
def resolveProbe (ok : Bool) (b : Breaker) : Except Exc Breaker :=
  if !b.probeInflight then .error .valueError
  else
    let b' := { b with probeInflight := false }
    if ok then .ok (b'.recordSuccess c)
    else
      .ok { b' with
        consecutiveFailures := c.threshold
        successes := 0
        openedAt := some now
        trips := b'.trips + 1 }

/-- Entries are blocked, in full or up to one probe. -/
def Blocking (b : Breaker) : Prop := b.openedAt.isSome ∨ b.halfOpen = true

instance (b : Breaker) : Decidable b.Blocking := inferInstanceAs (Decidable (_ ∨ _))

end Breaker

/-! ### The domain breakers -/

structure DataStaleBreaker extends Breaker where
  lastTick : Option ℤ := none
  prevTick : Option ℤ := none
  consecutiveMisses : ℕ := 0
  deriving DecidableEq

namespace DataStaleBreaker

def config : BreakerConfig := breakerConfig .dataStale
def dataStaleS : ℤ := 120000000
def maxMisses : ℕ := 3
def freshWindow : ℤ := 30000000

/-- A gap restarts the streak of fresh ticks. -/
def noteTick (ts : ℤ) (b : DataStaleBreaker) : DataStaleBreaker :=
  let gap := b.prevTick.any fun t => freshWindow < ts - t
  let b₁ := if gap then { b with successes := 0 } else b
  { b₁ with
    toBreaker := b₁.toBreaker.recordSuccess config
    prevTick := some ts
    lastTick := some ts
    consecutiveMisses := 0 }

def noteMiss (now : ℤ) (b : DataStaleBreaker) : DataStaleBreaker :=
  let b₁ := { b with consecutiveMisses := b.consecutiveMisses + 1 }
  if maxMisses ≤ b₁.consecutiveMisses then
    let b₂ := { b₁ with toBreaker := b₁.toBreaker.expire config now }
    if b₂.openedAt.isSome then b₂ else { b₂ with toBreaker := b₂.toBreaker.trip config now }
  else b₁

/-- Trip on silence, counted from the first tick. -/
def evaluate (now : ℤ) (b : DataStaleBreaker) : DataStaleBreaker :=
  let b₁ := { b with toBreaker := b.toBreaker.expire config now }
  if b₁.openedAt.isSome ∨ b₁.halfOpen = true then b₁
  else if b₁.lastTick.any fun t => dataStaleS ≤ now - t then
    { b₁ with toBreaker := b₁.toBreaker.trip config now }
  else b₁

end DataStaleBreaker

structure LossVelocityBreaker extends Breaker where
  points : List (ℤ × ℤ) := []
  deriving DecidableEq

namespace LossVelocityBreaker

def config : BreakerConfig := breakerConfig .lossVelocity
def lossFraction : ℚ := 2 / 100
def window : ℤ := 900000000
def resetWindow : ℤ := 300000000
def resetLossFraction : ℚ := 5 / 1000

/-- Drop points older than the horizon, but never the last one. -/
def prune (horizon : ℤ) : List (ℤ × ℤ) → List (ℤ × ℤ)
  | p :: q :: r => if p.1 < horizon then prune horizon (q :: r) else p :: q :: r
  | l => l

def noteEquity (ts : ℤ) (equity : ℤ) (b : LossVelocityBreaker) : LossVelocityBreaker :=
  { b with points := prune (ts - max window resetWindow) (b.points ++ [(ts, equity)]) }

/-- The relative loss from the oldest to the latest point of a window. -/
def windowLoss (now w : ℤ) (points : List (ℤ × ℤ)) : Option ℚ :=
  match points.filter fun p => now - w ≤ p.1 with
  | old :: new :: rest =>
    if old.2 ≤ 0 then none
    else some ((old.2 - ((new :: rest).getLast (by simp)).2) / old.2)
  | _ => none

/-- The short window has calmed down. -/
def Calm (now : ℤ) (points : List (ℤ × ℤ)) : Prop :=
  ∃ loss ∈ windowLoss now resetWindow points, loss < resetLossFraction

instance (now : ℤ) (points : List (ℤ × ℤ)) : Decidable (Calm now points) :=
  match h : windowLoss now resetWindow points with
  | none => .isFalse (by simp [Calm, h])
  | some loss => decidable_of_iff (loss < resetLossFraction) (by simp [Calm, h])

/-- Trip on a fast drop; reset when the short window calms down. -/
def evaluate (now : ℤ) (b : LossVelocityBreaker) : LossVelocityBreaker :=
  let b₁ := { b with toBreaker := b.toBreaker.expire config now }
  if b₁.openedAt.isSome ∨ b₁.halfOpen = true then
    if Calm now b₁.points then { b₁ with toBreaker := b₁.toBreaker.recordSuccess config } else b₁
  else
    match windowLoss now window b₁.points with
    | none => b₁
    | some loss =>
      if lossFraction ≤ loss then { b₁ with toBreaker := b₁.toBreaker.trip config now } else b₁

end LossVelocityBreaker

structure ExecErrorsBreaker extends Breaker where
  rejects : List ℤ := []
  deriving DecidableEq

namespace ExecErrorsBreaker

def config : BreakerConfig := breakerConfig .execErrors
def maxRejects : ℕ := 3
def window : ℤ := 600000000

def noteReject (now ts : ℤ) (reason : Reason) (b : ExecErrorsBreaker) : ExecErrorsBreaker :=
  if !reason.isExecError then b
  else
    let b₁ := { b with rejects := (b.rejects ++ [ts]).dropWhile fun t => t < ts - window }
    if maxRejects ≤ b₁.rejects.length then
      let b₂ := { b₁ with toBreaker := b₁.toBreaker.expire config now }
      if b₂.openedAt.isSome then b₂ else { b₂ with toBreaker := b₂.toBreaker.trip config ts }
    else b₁

end ExecErrorsBreaker

/-! ### The set -/

structure BreakerSet where
  dataStale : DataStaleBreaker := {}
  lossVelocity : LossVelocityBreaker := {}
  execErrors : ExecErrorsBreaker := {}
  deriving DecidableEq

namespace BreakerSet

def byName (s : BreakerSet) : BreakerName → Breaker
  | .dataStale => s.dataStale.toBreaker
  | .lossVelocity => s.lossVelocity.toBreaker
  | .execErrors => s.execErrors.toBreaker

def update (s : BreakerSet) (b : Breaker) : BreakerName → BreakerSet
  | .dataStale => { s with dataStale := { s.dataStale with toBreaker := b } }
  | .lossVelocity => { s with lossVelocity := { s.lossVelocity with toBreaker := b } }
  | .execErrors => { s with execErrors := { s.execErrors with toBreaker := b } }

@[simp] lemma byName_update (s : BreakerSet) (b : Breaker) (n m : BreakerName) :
    (s.update b n).byName m = if m = n then b else s.byName m := by
  cases n <;> cases m <;> rfl

/-- Read every `is_open` once: the expiries happen. -/
def expireAll (now : ℤ) (s : BreakerSet) : BreakerSet where
  dataStale := { s.dataStale with
    toBreaker := s.dataStale.toBreaker.expire (breakerConfig .dataStale) now }
  lossVelocity := { s.lossVelocity with
    toBreaker := s.lossVelocity.toBreaker.expire (breakerConfig .lossVelocity) now }
  execErrors := { s.execErrors with
    toBreaker := s.execErrors.toBreaker.expire (breakerConfig .execErrors) now }

@[simp] lemma byName_expireAll (now : ℤ) (s : BreakerSet) (n : BreakerName) :
    (s.expireAll now).byName n = (s.byName n).expire (breakerConfig n) now := by
  cases n <;> rfl

def state (s : BreakerSet) (now : ℤ) (n : BreakerName) : BreakerState :=
  (s.byName n).state (breakerConfig n) now

/-- The names open now. -/
def openBreakers (now : ℤ) (s : BreakerSet) : List BreakerName :=
  breakerNames.filter fun n => ((s.expireAll now).byName n).openedAt.isSome

/-- The names half-open after their cooldown with no probe in flight. -/
def halfOpenBreakers (now : ℤ) (s : BreakerSet) : List BreakerName :=
  breakerNames.filter fun n =>
    ((s.expireAll now).byName n).halfOpen && !((s.expireAll now).byName n).probeInflight

def isTrip (n : BreakerName) (e : Event) : Bool :=
  match e.payload with
  | .breakerTripped p => p.breaker = n
  | _ => false

def isReset (n : BreakerName) (e : Event) : Bool :=
  match e.payload with
  | .breakerReset p => p.breaker = n
  | _ => false

def seeRow (n : BreakerName) (since : Option ℤ) (e : Event) : Option ℤ :=
  if isTrip n e then some e.ts else if isReset n e then none else since

/-- The time of a breaker's latest trip with no reset after it. -/
def openSince (events : List Event) (n : BreakerName) : Option ℤ :=
  events.foldl (seeRow n) none

def tripCount (events : List Event) (n : BreakerName) : ℕ := events.countP (isTrip n)

def resetCount (events : List Event) (n : BreakerName) : ℕ := events.countP (isReset n)

/-- Adopt a recorded openness the memory has not seen. -/
def syncOne (now : ℤ) (events : List Event) (s : BreakerSet) (n : BreakerName) :
    BreakerSet :=
  match openSince events n with
  | none => s
  | some since =>
    let b := (s.byName n).expire (breakerConfig n) now
    if b.openedAt.isSome ∨ b.halfOpen = true ∨ b.probeInflight = true then s.update b n
    else
      s.update
        { b with
          openedAt := some since
          trips := b.trips + 1
          consecutiveFailures := (breakerConfig n).threshold }
        n

def syncFromLedger (now : ℤ) (events : List Event) (s : BreakerSet) : BreakerSet :=
  breakerNames.foldl (syncOne now events) s

/-- The set a restart makes from the ledger. -/
def rebuild (events : List Event) : BreakerSet :=
  breakerNames.foldl
    (fun s n => match openSince events n with
      | none => s
      | some since =>
        s.update
          { s.byName n with
            openedAt := some since
            trips := tripCount events n
            consecutiveFailures := (breakerConfig n).threshold }
          n)
    {}

/-! ### Operations that write rows -/

/-- A breaker set with the store it writes to. -/
abbrev Bound := BreakerSet × LedgerStore

def onStore {α : Type} (m : Prog LedgerStore Exc α) : Prog Bound Exc α :=
  Prog.on Prod.snd (fun st s => (s.1, st)) m

def tripRow (n : BreakerName) (ts : ℤ) (source : EventSource) (st : LedgerStore) : Row where
  ts := ts
  source := source
  key := .breakerTrip n (tripCount st.read n + 1)
  payload := .breakerTripped { breaker := n, cooldown := (breakerConfig n).cooldown }

def resetRow (n : BreakerName) (ts : ℤ) (source : EventSource) (probeOk : Bool)
    (st : LedgerStore) : Row where
  ts := ts
  source := source
  key := .breakerReset n (resetCount st.read n + 1)
  payload := .breakerReset { breaker := n, probeOk := probeOk }

def appendTrip (n : BreakerName) (ts : ℤ) (source : EventSource) : Prog LedgerStore Exc Unit :=
  fun st => LedgerStore.appendSuppressing [.integrityError] (tripRow n ts source st) st

def appendReset (n : BreakerName) (ts : ℤ) (source : EventSource) (probeOk : Bool) :
    Prog LedgerStore Exc Unit :=
  fun st => LedgerStore.appendSuppressing [.integrityError] (resetRow n ts source probeOk st) st

/-- Read the state of one breaker; its expiry happens. -/
def readState (now : ℤ) (n : BreakerName) : Prog Bound Exc BreakerState := fun s =>
  (.ok (s.1.state now n), s.1.update ((s.1.byName n).expire (breakerConfig n) now) n, s.2)

/-- Record the change of state since `before`, if any. -/
def transition (now : ℤ) (n : BreakerName) (before : BreakerState) (ts : ℤ)
    (source : EventSource) (probeOk : Bool := false) : Prog Bound Exc Unit := do
  let after ← readState now n
  if after = before then pure ()
  else if after = .opened then onStore (appendTrip n ts source)
  else if after = .closed then onStore (appendReset n ts source probeOk)
  else pure ()

def noteTick (now ts tsUtc : ℤ) (source : EventSource) : Prog Bound Exc Unit := do
  let before ← readState now .dataStale
  Prog.modify fun s => ({ s.1 with dataStale := s.1.dataStale.noteTick ts }, s.2)
  transition now .dataStale before tsUtc source

def noteMiss (now tsUtc : ℤ) (source : EventSource) : Prog Bound Exc Unit := do
  let before ← readState now .dataStale
  Prog.modify fun s => ({ s.1 with dataStale := s.1.dataStale.noteMiss now }, s.2)
  transition now .dataStale before tsUtc source

/-- Feed one stored row to the windows of the breakers that watch it. -/
def observe (now : ℤ) (s : BreakerSet) (e : Event) : BreakerSet :=
  match e.payload with
  | .orderRejected p =>
    if now - e.ts ≤ ExecErrorsBreaker.window then
      { s with execErrors := s.execErrors.noteReject now e.ts p.reason }
    else s
  | .markToMarket p =>
    if 0 < p.equityLamports then
      { s with lossVelocity := s.lossVelocity.noteEquity e.ts p.equityLamports }
    else s
  | _ => s

/-- The windows rebuilt from the ledger, with the equity of now as the last point. -/
def observeAll (now : ℤ) (events : List Event) (equityNow : ℤ) (s : BreakerSet) :
    BreakerSet :=
  let cleared := { s with
    execErrors := { s.execErrors with rejects := [] }
    lossVelocity := { s.lossVelocity with points := [] } }
  let fed := events.foldl (observe now) cleared
  { fed with lossVelocity := fed.lossVelocity.noteEquity now equityNow }

def evaluate (now : ℤ) (s : BreakerSet) : BreakerName → BreakerSet
  | .dataStale => { s with dataStale := s.dataStale.evaluate now }
  | .lossVelocity => { s with lossVelocity := s.lossVelocity.evaluate now }
  | .execErrors => s

/-- Evaluate one breaker and record its change since the start of the refresh. -/
def refreshOne (now tsUtc : ℤ) (source : EventSource)
    (before : BreakerName → BreakerState) (n : BreakerName) : Prog Bound Exc Unit := do
  Prog.modify fun s => (s.1.evaluate now n, s.2)
  transition now n (before n) tsUtc source

def refresh (now tsUtc : ℤ) (source : EventSource) (equityNow : ℤ) :
    Prog Bound Exc Unit := do
  let before ← Prog.read fun s => s.1.state now
  Prog.modify fun s => (observeAll now s.2.read equityNow (s.1.expireAll now), s.2)
  refreshOne now tsUtc source before .dataStale
  refreshOne now tsUtc source before .lossVelocity
  refreshOne now tsUtc source before .execErrors

def admitProbe (now : ℤ) (n : BreakerName) (s : BreakerSet) : Bool × BreakerSet :=
  let r := (s.byName n).admitProbe (breakerConfig n) now
  (r.1, s.update r.2 n)

def resolveProbe (now : ℤ) (n : BreakerName) (ok : Bool) (tsUtc : ℤ)
    (source : EventSource) : Prog Bound Exc Unit := do
  let before ← readState now n
  Prog.resultOf (fun s => (s.1.byName n).resolveProbe (breakerConfig n) now ok)
    fun b s => (s.1.update b n, s.2)
  transition now n before tsUtc source ok

end BreakerSet

end PumpGrok
