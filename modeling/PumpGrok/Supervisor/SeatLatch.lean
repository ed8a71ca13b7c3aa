import PumpGrok.Risk.HaltClear
import PumpGrok.Supervisor.SeatRelay
import PumpGrok.Supervisor.SeatRestart

/-!
The restart budget of a seat and its observe-only latch: held in memory by one process, rebuilt
from the ledger by the next.
-/

namespace PumpGrok

/-- One hour. -/
def restartWindow : ℤ := 3600000000

/-! ### What the ledger says of a seat -/

def seatId : Seat → Text
  | .risk => "bot-02-risk".toList
  | .sniper => "bot-04-sniper".toList
  | .exit => "bot-06-exit".toList
  | .other name => name

def kindLedgerReadFailed : EscalationKind := .other "ledger_read_failed".toList

def resumePrefix (seat : Seat) : Text := "resume ".toList ++ seatId seat ++ " by human:".toList

namespace Payload

/-- The seat whose spent budget a row reports. -/
def exhausted : Payload → Option Seat
  | .escalation x => if x.kind = kindRestartExhausted then some x.seat else none
  | _ => none

/-- A human's resume note for a seat. -/
def resumes (seat : Seat) : Payload → Bool
  | .journalNote x => !x.isVerdict && x.seat = seat && (resumePrefix seat).isPrefixOf x.text
  | _ => false

/-- Neither of the two, for any seat. -/
def Plain (p : Payload) : Prop := p.exhausted = none ∧ ∀ seat, p.resumes seat = false

end Payload

/-- A resume note comes after a floor. No note comes after an unknown one. -/
def resumeAfter (notes : List Event) (seat : Seat) : Option ℕ → Bool
  | none => false
  | some floor => notes.any fun e => floor < e.seq && e.payload.resumes seat

/-- The last row that reports the seat's budget spent. -/
def newestExhaustion (es : List Event) (seat : Seat) : Option Event :=
  es.foldl (fun newest e => if e.payload.exhausted = some seat then some e else newest) none

inductive LatchReason where
  | restartExhausted
  | ledgerReadFailed
  deriving DecidableEq

/-- Why a seat is observe-only, and the head of the ledger when it became so, where it is known. -/
structure Latch where
  reason : LatchReason
  after : Option ℕ
  deriving DecidableEq

/-- The latch that a readable ledger restores. -/
def rebuildExhaustionLatch (es : List Event) (seat : Seat) : Option Latch :=
  match newestExhaustion es seat with
  | none => none
  | some newest =>
    if resumeAfter es seat (some newest.seq) then none
    else some ⟨.restartExhausted, some newest.seq⟩

/-! ### The machine -/

/-- A transaction of other writers, of other processes too. It is assumed to report no spent budget:
the seats' tool that appends events could write such a row. -/
abbrev OtherRows := { rows : List Row // ∀ row ∈ rows, row.payload.exhausted = none }

def LedgerStore.transact (st : LedgerStore) (rows : OtherRows) : LedgerStore :=
  (appendBatch rows.1 st).2

/-- One process: its seats' budgets, for the seats it has constructed, and the latches they
share. -/
structure SeatDesk where
  store : LedgerStore := {}
  tasks : Seat → Option (RestartPolicy ℤ) := fun _ => none
  latched : Seat → Option Latch := fun _ => none

/-- What meets the construction of a seat. -/
structure SeatStart where
  readable : Bool := true
  countable : Bool := true
  haltTs : ℤ := 0
  haltWritable : Bool := true
  faults : RelayFaults := {}
  clock : RelayClock := { compared := 0, reported := 0, stamped := 0 }

/-- What meets a crash: the reading of its clock, what other writers append once the head has been
counted, and what meets the halt and the escalation. -/
structure SeatCrash where
  now : ℤ
  countable : Bool := true
  meanwhile : List OtherRows := []
  haltTs : ℤ
  haltWritable : Bool := true
  faults : RelayFaults := {}
  clock : RelayClock

inductive SeatAction where
  | construct (seat : Seat) (f : SeatStart)
  | crash (seat : Seat) (c : SeatCrash)
  | owedHalt (haltTs : ℤ) (haltWritable : Bool)
  | transact (rows : OtherRows)
  | verify (intact : Bool)
  | foldResume (readable : Bool)
  | stop

namespace SeatDesk

variable (source : EventSource)

/-- The exit seat's halt. It raises without a recorded equity; a refused append is only logged. -/
def appendExitHalt (haltTs : ℤ) (haltWritable : Bool) : Prog LedgerStore Exc Unit := fun st =>
  match st.initialEquity with
  | none => (.error .corruptState, st)
  | some equity =>
    (.ok (), (LedgerStore.offer haltWritable (exitHaltRow equity haltTs source) st).2)

def exhaustedCall (seat : Seat) : EscalationCall where
  kind := kindRestartExhausted
  seat := seat
  detail := seatId seat ++ " restart budget exhausted; observe-only".toList
  source := source

def readFailedCall (seat : Seat) : EscalationCall where
  kind := kindLedgerReadFailed
  seat := seat
  detail := seatId seat ++ " exit halt not restored".toList
  source := source

/-- A latched seat keeps its first latch. -/
def latch (s : SeatDesk) (seat : Seat) (l : Latch) : SeatDesk :=
  { s with latched := Function.update s.latched seat (some ((s.latched seat).getD l)) }

def latchUnreadableLedger (s : SeatDesk) (seat : Seat) (countable : Bool) : SeatDesk :=
  s.latch seat ⟨.ledgerReadFailed, if countable then some s.store.count else none⟩

def rebuildLatch (s : SeatDesk) (seat : Seat) (f : SeatStart) : SeatDesk :=
  if f.readable then
    match rebuildExhaustionLatch s.store.read seat with
    | none => s
    | some l => s.latch seat l
  else s.latchUnreadableLedger seat f.countable

/-- A restored latch of the exit seat restores its halt. Where that raises, the seat stays latched
and the failure is escalated, if it can be. -/
def restoreLatchedExitHalt (s : SeatDesk) (seat : Seat) (f : SeatStart) : SeatDesk :=
  if seat = .exit ∧ (s.latched seat).isSome then
    match appendExitHalt source f.haltTs f.haltWritable s.store with
    | (.ok _, st) => { s with store := st }
    | (.error _, st) =>
      let s := latchUnreadableLedger { s with store := st } seat f.countable
      { s with store := (LedgerStore.appendEscalation f.faults f.clock
          (readFailedCall source seat) s.store).2 }
  else s

/-- The constructor of a seat's task. -/
def construct (s : SeatDesk) (seat : Seat) (f : SeatStart) : SeatDesk :=
  let s := { s with tasks := Function.update s.tasks seat (some { window := restartWindow }) }
  (s.rebuildLatch seat f).restoreLatchedExitHalt source seat f

/-- The ledger once the others have written. -/
def metMeanwhile (s : SeatDesk) (c : SeatCrash) : LedgerStore :=
  c.meanwhile.foldl LedgerStore.transact s.store

/-- A crash that spends the budget latches the seat first, from the head it counted, and then
writes the rows. -/
def onCrash (s : SeatDesk) (seat : Seat) (policy : RestartPolicy ℤ) (c : SeatCrash) : SeatDesk :=
  let (restart, policy) := policy.recordCrash c.now
  let s := { s with tasks := Function.update s.tasks seat (some policy) }
  if restart then s
  else if (s.latched seat).isSome then s
  else if c.countable = false then s
  else
    let s := { s.latch seat ⟨.restartExhausted, some s.store.count⟩ with store := s.metMeanwhile c }
    let escalate := fun st =>
      { s with store :=
          (LedgerStore.appendEscalation c.faults c.clock (exhaustedCall source seat) st).2 }
    if seat = .exit then
      match appendExitHalt source c.haltTs c.haltWritable s.store with
      | (.error _, st) => { s with store := st }
      | (.ok _, st) => escalate st
    else escalate s.store

/-- The halt that a latched exit seat owes at the start of its cycle. -/
def owedHalt (s : SeatDesk) (haltTs : ℤ) (haltWritable : Bool) : SeatDesk :=
  if (s.latched .exit).isSome then
    { s with store := (appendExitHalt source haltTs haltWritable s.store).2 }
  else s

/-- Clear the latches with a resume note after them. -/
def foldResume (s : SeatDesk) (readable : Bool) : SeatDesk :=
  if readable then
    { s with latched := fun seat =>
        (s.latched seat).filter fun l => !resumeAfter s.store.read seat l.after }
  else s

def step (s : SeatDesk) : SeatAction → SeatDesk
  | .construct seat f => if (s.tasks seat).isSome then s else s.construct source seat f
  | .crash seat c =>
    match s.tasks seat with
    | none => s
    | some policy => s.onCrash source seat policy c
  | .owedHalt haltTs haltWritable => s.owedHalt source haltTs haltWritable
  | .transact rows => { s with store := s.store.transact rows }
  | .verify intact => { s with store := (LedgerStore.verify { s.store with intact := intact }).2 }
  | .foldResume readable => s.foldResume readable
  | .stop => { store := s.store }

end SeatDesk

end PumpGrok
