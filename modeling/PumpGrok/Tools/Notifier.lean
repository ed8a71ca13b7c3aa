import PumpGrok.Core.Types
import PumpGrok.Lib.Dict
import PumpGrok.Lib.Runs

/-!
The alert fan-out. A call of `send` writes the alert file and starts one delivery for each
allowlisted sink that has not had its key; the deliveries are under way together, and with those of
other calls, until each is answered or runs out of its time.
-/

namespace PumpGrok

namespace Notify

abbrev Destination := Text

/-- The idempotency key: the one given, or derived from the alert and the minute. -/
inductive AlertKey where
  | given (key : Text)
  | derived (kind ticketId severity : Text) (minute : ℤ)
  deriving DecidableEq

structure Alert where
  severity : Text
  kind : Text
  text : Text
  ticketId : Option Text := none
  destinations : Option (List Destination) := none
  idempotencyKey : Option Text := none
  deriving DecidableEq

def alertKey (kind : Text) (ticketId : Option Text) (severity : Text) (now : ℤ) : AlertKey :=
  .derived kind (ticketId.getD []) severity (now / 60000000)

def Alert.key (m : Alert) (now : ℤ) : AlertKey :=
  match m.idempotencyKey with
  | some (c :: key) => .given (c :: key)
  | _ => alertKey m.kind m.ticketId m.severity now

/-! ### The notifier -/

structure Notifier where
  allowlist : List Destination
  writtenKeys : Finset AlertKey := ∅
  delivered : Finset (AlertKey × Destination) := ∅

/-- Allowed and refused destinations, in order. -/
def partitionDestinations (destinations allowlist : List Destination) :
    List Destination × List Destination :=
  (destinations.filter (· ∈ allowlist), destinations.filter (· ∉ allowlist))

inductive SinkError where
  | timedOut
  | http (status : ℕ)
  | exception (name : Text)
  | writeFailed (name : Text)
  | notAllowlisted
  deriving DecidableEq

/-- Three attempts at most. -/
def attemptsMax : ℕ := 3

/-- A delivery under way with the attempts that failed, or its outcome. -/
inductive DeliveryState where
  | waiting (failed : ℕ)
  | done (error : Option SinkError)
  deriving DecidableEq

def DeliveryState.isWaiting : DeliveryState → Bool
  | .waiting _ => true
  | .done _ => false

/-- A call of `send`. The file row is there when the file was pending. -/
structure SendCall where
  key : AlertKey
  requested : List Destination
  refused : List Destination := []
  fileRow : Option (Option SinkError) := none
  deliveries : Dict Destination DeliveryState := ∅
  suppressed : Bool := false
  cancelled : Bool := false

/-- The call is still delivering to a sink. -/
def SendCall.delivering (c : SendCall) (d : Destination) : Bool :=
  !c.cancelled && (c.deliveries.get d).any DeliveryState.isWaiting

/-- The notifier with its calls, and what reached the world outside: the lines of the alert file,
the deliveries a sink accepted, and the destinations of every attempt. -/
structure Outbox where
  notifier : Notifier
  calls : List SendCall := []
  lines : List (AlertKey × Alert) := []
  sent : List (AlertKey × Destination) := []
  attempted : List Destination := []

/-- What a write of stdout and file meets. An error may come when the line is in the file. -/
inductive FileWrite where
  | written
  | raised (name : Text) (leftLine : Bool)

def FileWrite.leavesLine : FileWrite → Bool
  | .written => true
  | .raised _ leftLine => leftLine

inductive Attempt where
  | returned
  | raised (error : SinkError) (retriable : Bool)

inductive Action where
  | send (m : Alert) (now : ℤ) (file : FileWrite)
  | attempt (i : ℕ) (d : Destination) (o : Attempt)
  | expire (i : ℕ) (d : Destination)
  | cancel (i : ℕ)

namespace Outbox

/-- The destinations a call asks for: its own, else the whole allowlist. -/
def requestedBy (s : Outbox) (m : Alert) : List Destination :=
  m.destinations.getD s.notifier.allowlist

/-- The sinks still to be served under a key. -/
def pending (s : Outbox) (m : Alert) (key : AlertKey) : List Destination :=
  (partitionDestinations (s.requestedBy m) s.notifier.allowlist).1.filter fun d =>
    (key, d) ∉ s.notifier.delivered

def filePending (s : Outbox) (key : AlertKey) : Bool := key ∉ s.notifier.writtenKeys

/-- `dict.fromkeys`, each delivery not yet attempted. -/
def startDeliveries (ds : List Destination) : Dict Destination DeliveryState :=
  ds.foldl (fun deliveries d => deliveries.set d (.waiting 0)) ∅

/-- Write stdout and the file, when they are pending. The key is recorded only after a success. -/
def writeFile (s : Outbox) (m : Alert) (key : AlertKey) (file : FileWrite) :
    Option (Option SinkError) × Outbox :=
  if s.filePending key then
    let lines := if file.leavesLine then s.lines ++ [(key, m)] else s.lines
    match file with
    | .written =>
      (some none, { s with
        lines := lines
        notifier := { s.notifier with writtenKeys := insert key s.notifier.writtenKeys } })
    | .raised name _ => (some (some (.writeFailed name)), { s with lines := lines })
  else (none, s)

/-- `send` up to the await of its deliveries. -/
def send (s : Outbox) (m : Alert) (now : ℤ) (file : FileWrite) : Outbox :=
  let key := m.key now
  let refused := (partitionDestinations (s.requestedBy m) s.notifier.allowlist).2
  if s.pending m key = [] ∧ s.filePending key = false then
    { s with calls := s.calls ++
        [{ key := key, requested := s.requestedBy m, suppressed := true }] }
  else
    let w := s.writeFile m key file
    { w.2 with calls := s.calls ++
        [{ key := key
           requested := s.requestedBy m
           refused := refused
           fileRow := w.1
           deliveries := startDeliveries (s.pending m key) }] }

/-- Give a delivery of a call its next state. -/
def settle (s : Outbox) (i : ℕ) (c : SendCall) (d : Destination) (state : DeliveryState) : Outbox :=
  { s with calls := s.calls.set i { c with deliveries := c.deliveries.set d state } }

/-- One attempt of a delivery reaches its sink. Success is recorded; a retriable failure leaves the
delivery waiting while attempts are left. -/
def attempt (s : Outbox) (i : ℕ) (d : Destination) (o : Attempt) : Outbox :=
  match s.calls[i]? with
  | none => s
  | some c =>
    match c.cancelled, c.deliveries.get d with
    | false, some (.waiting failed) =>
      let s := { s with attempted := s.attempted ++ [d] }
      match o with
      | .returned =>
        let s := s.settle i c d (.done none)
        { s with
          sent := s.sent ++ [(c.key, d)]
          notifier := { s.notifier with delivered := insert (c.key, d) s.notifier.delivered } }
      | .raised e retriable =>
        if retriable = true ∧ failed + 1 < attemptsMax then s.settle i c d (.waiting (failed + 1))
        else s.settle i c d (.done (some e))
    | _, _ => s

/-- A delivery runs past its bound. -/
def expire (s : Outbox) (i : ℕ) (d : Destination) : Outbox :=
  match s.calls[i]? with
  | none => s
  | some c => if c.delivering d then s.settle i c d (.done (some .timedOut)) else s

/-- The caller's task is cancelled, and its deliveries with it. -/
def cancel (s : Outbox) (i : ℕ) : Outbox :=
  match s.calls[i]? with
  | none => s
  | some c => { s with calls := s.calls.set i { c with cancelled := true } }

def step (s : Outbox) : Action → Outbox
  | .send m now file => s.send m now file
  | .attempt i d o => s.attempt i d o
  | .expire i d => s.expire i d
  | .cancel i => s.cancel i

def start (allowlist : List Destination) : Outbox := { notifier := { allowlist := allowlist } }

end Outbox

end Notify

end PumpGrok
