import Mathlib
import PumpGrok.Core.CanonicalJson
import PumpGrok.Core.Types
import PumpGrok.Lib.ByteLines
import PumpGrok.Lib.Runs

/-!
The journal export. Each target is a file of lines keyed by ledger seq, and one cursor tells how
far the last export came. A process may die after any byte it writes.

The journal tool writes a shorter line of its own into the same day file.
-/

namespace PumpGrok

open Json (Value)

namespace Export

open CanonicalJson (text canonicalJson)

/-- A row as the store reads it. -/
structure Event where
  seq : ℕ
  tsUtc : Text
  source : Text
  correlationId : Text
  type : Text
  payload : List (Text × Value)

/-- What a row says, before the ledger numbers it. -/
structure Entry where
  tsUtc : Text
  source : Text
  correlationId : Text
  type : Text
  payload : List (Text × Value)

def Entry.numbered (e : Entry) (seq : ℕ) : Event :=
  ⟨seq, e.tsUtc, e.source, e.correlationId, e.type, e.payload⟩

/-- Conversions of the standard library; each may raise. -/
structure Conversions where
  /-- the text of a value that is not a string -/
  str : Value → Text
  int : Value → Except Text ℤ
  float : Value → Except Text Json.Float
  /-- seconds since the epoch -/
  epoch : Text → Except Text Json.Float
  /-- lamports in SOL -/
  solStr : ℤ → Text
  /-- a scaled ledger price -/
  priceStr : Value → Except Text Text

inductive Target where
  | journal (day : Text)
  | trades
  deriving DecidableEq

/-! ### Lines -/

def Event.day (e : Event) : Text := e.tsUtc.take 10

def journalLine (e : Event) : Except Text Text :=
  canonicalJson [(text "seq", .num e.seq), (text "ts_utc", .str e.tsUtc),
    (text "source", .str e.source), (text "correlation_id", .str e.correlationId),
    (text "type", .str e.type), (text "payload", .obj e.payload)]

def journalBatches (events : List Event) : Except Text (Dict Text (List (ℕ × Text))) :=
  events.foldlM (fun byDay e => do
    let line ← journalLine e
    .ok (byDay.set e.day ((byDay.get e.day).getD [] ++ [(e.seq, line)]))) ∅

section Trades

variable (conv : Conversions)

def payloadGet (payload : List (Text × Value)) (k : String) (default : Value) : Value :=
  (AssocList.get (text k) payload).getD default

def strOf : Value → Text
  | .str t => t
  | v => conv.str v

def buyLine (e : Event) : Except Text (List (Text × Value)) := do
  let ts ← conv.epoch e.tsUtc
  let filled ← conv.int (payloadGet e.payload "filled_lamports" (.num 0))
  let price ← conv.priceStr (payloadGet e.payload "price_avg" (.str (text "0")))
  .ok [(text "type", .str (text "buy")), (text "ts", .float ts), (text "mode", .str (text "paper")),
    (text "seq", .num e.seq),
    (text "mint", .str (strOf conv (payloadGet e.payload "mint" (.str [])))),
    (text "symbol", .str []), (text "name", .str []),
    (text "size_sol", .str (conv.solStr filled)), (text "entry_price", .str price),
    (text "tx_hash", .str (text "dry_run")),
    (text "venue_tx_ref", .str (strOf conv (payloadGet e.payload "venue_tx_ref" (.str []))))]

def skipLine (e : Event) : Except Text (List (Text × Value)) := do
  let ts ← conv.epoch e.tsUtc
  .ok [(text "type", .str (text "skip")), (text "ts", .float ts),
    (text "mode", .str (text "paper")),
    (text "seq", .num e.seq),
    (text "mint", .str (strOf conv (payloadGet e.payload "mint" (.str [])))),
    (text "symbol", .str []),
    (text "stage", .str (strOf conv (payloadGet e.payload "stage" (.str (text "risk"))))),
    (text "reason", .str (strOf conv (payloadGet e.payload "reason" (.str [])))),
    (text "detail", .str (strOf conv (payloadGet e.payload "detail" (.str [])))),
    (text "scores", .null)]

def closeLine (e : Event) : Except Text (List (Text × Value)) := do
  let ts ← conv.epoch e.tsUtc
  let price ← conv.priceStr (payloadGet e.payload "price_exit" (.str (text "0")))
  let pnl ← conv.int (payloadGet e.payload "realized_pnl_lamports" (.num 0))
  let pct ← conv.float (payloadGet e.payload "pnl_pct" (.str (text "0")))
  let hold ← conv.int (payloadGet e.payload "hold_seconds" (.num 0))
  .ok [(text "type", .str (text "close")), (text "ts", .float ts),
    (text "mode", .str (text "paper")), (text "seq", .num e.seq),
    (text "mint", .str (strOf conv (payloadGet e.payload "mint" (.str [])))),
    (text "symbol", .str []), (text "creator", .str []), (text "entry_price", .str (text "0")),
    (text "exit_price", .str price), (text "pnl_sol", .str (conv.solStr pnl)),
    (text "pnl_pct", .float pct), (text "hold_seconds", .num hold),
    (text "reason", .str (strOf conv (payloadGet e.payload "reason" (.str [])))),
    (text "tx_hash", .str (text "dry_run")),
    (text "venue_tx_ref", .str (strOf conv (payloadGet e.payload "venue_tx_ref" (.str [])))),
    (text "score", .num 0)]

/-- `json.dumps(..., ensure_ascii=False)`. -/
def dumpTrade (ms : List (Text × Value)) : Text := Json.dumps ⟨false, true⟩ (.obj ms)

def Event.isBuy (e : Event) : Bool :=
  e.type = text "FillRecorded" &&
    match AssocList.get (text "side") e.payload with
    | some (.str t) => t = text "buy"
    | _ => false

/-- The trade line of a row, where it has one. -/
def tradeLine (e : Event) : Except Text (Option Text) :=
  if e.isBuy then (buyLine conv e).map fun ms => some (dumpTrade ms)
  else if e.type = text "OrderRejected" then (skipLine conv e).map fun ms => some (dumpTrade ms)
  else if e.type = text "PositionClosed" then (closeLine conv e).map fun ms => some (dumpTrade ms)
  else .ok none

def tradeLines : List Event → Except Text (List (ℕ × Text))
  | [] => .ok []
  | e :: es => do
    let line ← tradeLine conv e
    let rest ← tradeLines es
    .ok ((line.map fun l => (e.seq, l)).toList ++ rest)

end Trades

/-! ### What a target already holds -/

def asInt : Value → Option ℤ
  | .num n => some n
  | .bool b => some (if b then 1 else 0)
  | _ => none

def recordGet (k : String) : Value → Option Value
  | .obj ms => AssocList.get (text k) ms.reverse
  | _ => none

def readRecord (raw : Bytes) : Option Value := (Bytes.decode raw).bind Json.loads

/-- The seq of an export record: a record with a `type`. -/
def exportedSeq (raw : Bytes) : Option ℤ := do
  let record ← readRecord raw
  let _ ← recordGet "type" record
  let seq ← recordGet "seq" record
  asInt seq

def exportedSeqs (data : Bytes) : List ℤ := (Bytes.splitlines data).filterMap exportedSeq

/-- The seq of any record, the tool's own lines included. -/
def recordSeq (raw : Bytes) : Option ℤ := do
  let record ← readRecord raw
  let seq ← recordGet "seq" record
  asInt seq

def hasSeq (data : Bytes) (seq : ℕ) : Bool :=
  (Bytes.splitlines data).any fun raw => recordSeq raw = some (seq : ℤ)

/-! ### Files -/

structure Disk where
  file : Target → Bytes
  /-- `meta.export_seq` -/
  cursor : ℕ

/-- A process at work: after so many effects it dies, if at all. -/
structure Process where
  disk : Disk
  left : Option ℕ

inductive Failure where
  | died
  | raised (error : Text)
  deriving DecidableEq

abbrev Io (α : Type) : Type := Prog Process Failure α

def effect (f : Disk → Disk) : Io Unit := fun p =>
  match p.left with
  | none => (.ok (), { p with disk := f p.disk })
  | some 0 => (.error .died, p)
  | some (n + 1) => (.ok (), ⟨f p.disk, some n⟩)

def raising {α : Type} : Except Text α → Io α
  | .ok a => pure a
  | .error e => Prog.raise (.raised e)

def Disk.setFile (d : Disk) (t : Target) (data : Bytes) : Disk :=
  { d with file := Function.update d.file t data }

def truncate (t : Target) (size : ℕ) : Io Unit :=
  effect fun d => d.setFile t ((d.file t).take size)

/-- A write may be cut short after any byte. -/
def write (t : Target) : Bytes → Io Unit
  | [] => pure ()
  | b :: bs => do
    effect fun d => d.setFile t (d.file t ++ [b])
    write t bs

/-- Cut a fragment after the last newline. -/
def cutTorn (t : Target) (complete data : Bytes) : Io Unit :=
  if complete.length ≠ data.length then truncate t complete.length else pure ()

def appendMissing (t : Target) (rows : List (ℕ × Text)) : Io ℕ :=
  if rows = [] then pure 0
  else do
    let data ← Prog.read fun p => p.disk.file t
    let complete := Bytes.complete data
    let present := exportedSeqs complete
    let fresh := (rows.filter fun r => decide ((r.1 : ℤ) ∉ present)).map Prod.snd
    if fresh = [] then pure 0
    else do
      cutTorn t complete data
      write t (Bytes.joinLines (fresh.map Bytes.encode))
      pure fresh.length

def appendBatches : List (Text × List (ℕ × Text)) → Io ℕ
  | [] => pure 0
  | (day, rows) :: bs => do
    let n ← appendMissing (.journal day) rows
    let m ← appendBatches bs
    pure (n + m)

structure Exported where
  journalLines : ℕ
  tradeLines : ℕ
  exportSeq : ℕ

def sortedDays (byDay : Dict Text (List (ℕ × Text))) : List (Text × List (ℕ × Text)) :=
  byDay.entries.mergeSort fun a b => decide (a.1 ≤ b.1)

/-- Move the cursor to the last row that was read. -/
def finish (events : List Event) (x : Exported) : Io Exported :=
  match events.getLast? with
  | none => pure x
  | some e => do
    effect fun d => { d with cursor := e.seq }
    pure { x with exportSeq := e.seq }

def exportLedger (conv : Conversions) (rows : List Event) : Io Exported := do
  let exportSeq ← Prog.read fun p => p.disk.cursor
  let events := rows.filter fun e => decide (exportSeq + 1 ≤ e.seq)
  let batches ← raising (journalBatches events)
  let journalLines ← appendBatches (sortedDays batches)
  let lines ← raising (tradeLines conv events)
  let trades ← appendMissing .trades lines
  finish events ⟨journalLines, trades, exportSeq⟩

/-! ### The journal tool -/

def noteLine (seq : ℕ) (kind : Text) (payload : List (Text × Value)) : Text :=
  Json.dumps ⟨true, true⟩
    (.obj [(text "seq", .num seq), (text "kind", .str kind), (text "payload", .obj payload)])

/-- `_export_line` of the journal tool, under its lock. -/
def exportLine (day : Text) (seq : ℕ) (line : Text) : Io Unit := do
  let data ← Prog.read fun p => p.disk.file (.journal day)
  let complete := Bytes.complete data
  if hasSeq complete seq then pure ()
  else do
    cutTorn (.journal day) complete data
    write (.journal day) (Bytes.encode line ++ [Bytes.newline])

/-! ### Histories -/

structure Journal where
  rows : List Event
  disk : Disk

def Journal.start : Journal := ⟨[], ⟨fun _ => [], 0⟩⟩

/-- What happens to a ledger and its exports. An export, or the tool's line for a row that is in
the ledger, may die after so many effects. -/
inductive Action where
  | grow (entry : Entry)
  | exports (left : Option ℕ)
  | note (seq : ℕ) (kind : Text) (payload : List (Text × Value)) (left : Option ℕ)

/-- The store dumps a payload before it stores the row, and refuses one it cannot dump. -/
def Journal.grow (s : Journal) (entry : Entry) : Journal :=
  match canonicalJson entry.payload with
  | .error _ => s
  | .ok _ => { s with rows := s.rows ++ [entry.numbered (s.rows.length + 1)] }

def Journal.exports (conv : Conversions) (s : Journal) (left : Option ℕ) :
    Except Failure Exported × Process :=
  exportLedger conv s.rows ⟨s.disk, left⟩

def Journal.note (s : Journal) (seq : ℕ) (kind : Text) (payload : List (Text × Value))
    (left : Option ℕ) : Journal :=
  match s.rows.find? fun e => e.seq = seq with
  | none => s
  | some e =>
    { s with disk := (exportLine e.day seq (noteLine seq kind payload) ⟨s.disk, left⟩).2.disk }

def step (conv : Conversions) (s : Journal) : Action → Journal
  | .grow entry => s.grow entry
  | .exports left => { s with disk := (s.exports conv left).2.disk }
  | .note seq kind payload left => s.note seq kind payload left

end Export

end PumpGrok
