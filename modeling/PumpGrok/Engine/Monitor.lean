import PumpGrok.Core.CanonicalJson
import PumpGrok.Core.Types
import PumpGrok.Lib.Dict
import PumpGrok.Lib.SeenSet

/-!
The monitor of new launches: create events fill a bounded buffer, sweeps decide what is in it,
and a bounded set remembers what has been reported.

Times are seconds. A timestamp comes from the sender and may be any float.
-/

namespace PumpGrok

open Json (Value)
open CanonicalJson (text)

namespace LaunchMonitor

/-! ### Timestamps -/

inductive Stamp where
  | fin (q : ℚ)
  | posInf
  | negInf
  | nan
  deriving DecidableEq

namespace Stamp

/-- `<` of floats: nothing is less or greater than a value that is no number. -/
def lt : Stamp → Stamp → Bool
  | .nan, _ => false
  | _, .nan => false
  | _, .negInf => false
  | .posInf, _ => false
  | .fin a, .fin b => a < b
  | _, _ => true

/-- `now - t`. -/
def since (now : ℚ) : Stamp → Stamp
  | .fin t => .fin (now - t)
  | .posInf => .negInf
  | .negInf => .posInf
  | .nan => .nan

end Stamp

/-! ### Tokens -/

structure Token where
  mint : Text
  name : Option Text
  symbol : Option Text
  description : Option Text
  imageUri : Option Text
  metadataUri : Option Text
  twitter : Option Text
  telegram : Option Text
  website : Option Text
  creator : Option Text
  createdTimestamp : Stamp
  solInCurve : ℤ
  marketCapSol : ℤ
  curveProgress : ℚ
  /-- nothing where there is no evidence -/
  uniqueBuyers : Option ℕ := none
  deriving DecidableEq

namespace Token

/-- `max(0.0, now - created)`, and zero where the stamp is zero. -/
def ageSeconds (t : Token) (now : ℚ) : Stamp :=
  if t.createdTimestamp = .fin 0 then .fin 0
  else
    let age := t.createdTimestamp.since now
    if (Stamp.fin 0).lt age then age else .fin 0

def nonempty (t : Option Text) : Bool := t.any (· ≠ [])

def hasMetadata (t : Token) : Bool := nonempty t.name && nonempty t.imageUri

end Token

structure FilterSettings where
  minUniqueBuyers : ℕ := 5
  maxCurveProgress : ℚ := 2 / 5
  requireMetadata : Bool := true
  minAgeSeconds : ℚ := 120

/-! ### Create events -/

/-- A number of the socket that `float` refuses, or one too large for it. -/
inductive FloatError where
  | refused
  | overflow
  deriving DecidableEq

/-- Conversions of the standard library on values of a message, or on a missing one. -/
structure Conversions where
  float : Option Value → Except FloatError Stamp
  /-- SOL to lamports; nothing where it raises -/
  solToLamports : Option Value → Option ℤ

section Parse

variable (conv : Conversions)

/-- The truth value of a field. -/
def truthy : Option Value → Bool
  | none => false
  | some .null => false
  | some (.bool b) => b
  | some (.num n) => n ≠ 0
  | some (.float x) => conv.float (some (.float x)) ≠ .ok (.fin 0)
  | some (.str t) => t ≠ []
  | some (.arr xs) => !xs.isEmpty
  | some (.obj ms) => !ms.isEmpty

/-- `a or b`. -/
def pyOr (a b : Option Value) : Option Value := if truthy conv a then a else b

def coerceFloat (value : Option Value) (default : Stamp) : Except FloatError Stamp :=
  match conv.float value with
  | .ok x => .ok x
  | .error .refused => .ok default
  | .error .overflow => .error .overflow

def coerceLamports (value : Option Value) (default : ℤ) : ℤ :=
  (conv.solToLamports value).getD default

/-- An optional text of the model; any other value fails its validation. -/
def optText : Option Value → Option (Option Text)
  | none => some none
  | some .null => some none
  | some (.str t) => some (some t)
  | some _ => none

def curveCompletionLamports : ℤ := 85000000000

def isCreate (payload : List (Text × Value)) : Bool :=
  match AssocList.get (text "txType") payload with
  | some (.str t) => t = text "create" ∨ t = text "created"
  | _ => false

/-- Milliseconds are told from seconds by their size. -/
def createdTs (created : Option Value) (createdNum : Stamp) : Stamp :=
  if truthy conv created && (Stamp.fin 100000000000).lt createdNum then
    match createdNum with
    | .fin q => .fin (q / 1000)
    | s => s
  else createdNum

/-- The token that the fields of a message describe, where each has its type. -/
def tokenOf (payload : List (Text × Value)) (created : Stamp) : Option Token := do
  let field (k : String) := AssocList.get (text k) payload
  let solInCurve := coerceLamports conv (field "vSolInBondingCurve") 0
  let some mint ← optText (pyOr conv (field "mint") (field "mintAddress")) | none
  return {
    mint
    name := ← optText (field "name")
    symbol := ← optText (field "symbol")
    description := ← optText (field "description")
    imageUri := ← optText (pyOr conv (field "image") (field "image_uri"))
    metadataUri := ← optText (pyOr conv (field "uri") (field "metadata_uri"))
    twitter := ← optText (field "twitter")
    telegram := ← optText (field "telegram")
    website := ← optText (field "website")
    creator := ← optText (pyOr conv (field "traderPublicKey") (field "creator"))
    createdTimestamp := created
    solInCurve
    marketCapSol := coerceLamports conv (field "marketCapSol") 0
    curveProgress := min 1 (solInCurve / curveCompletionLamports) }

/-- A create event as a token; nothing where it is not one. An overflow is not caught. -/
def parseCreateEvent (payload : List (Text × Value)) (now : ℚ) :
    Except FloatError (Option Token) :=
  if !isCreate payload then .ok none
  else if !truthy conv (pyOr conv (AssocList.get (text "mint") payload)
      (AssocList.get (text "mintAddress") payload)) then .ok none
  else do
    let created := pyOr conv (AssocList.get (text "timestamp") payload)
      (AssocList.get (text "createdTimestamp") payload)
    let createdNum ← coerceFloat conv created (.fin now)
    .ok (tokenOf conv payload (createdTs conv created createdNum))

end Parse

/-! ### The filter -/

inductive Reason where
  | ok
  | noMetadata
  | curveTooFull
  | tooYoung
  | dataUnavailable
  | fewBuyers
  | staleNoTraction
  | bufferOverflow
  deriving DecidableEq

/-- The first gate a token fails; terminal verdicts before those that may still change. -/
def passesFilter (cfg : FilterSettings) (t : Token) (now : ℚ) : Reason :=
  if cfg.requireMetadata ∧ ¬ t.hasMetadata then .noMetadata
  else if cfg.maxCurveProgress ≤ t.curveProgress then .curveTooFull
  else if (t.ageSeconds now).lt (.fin cfg.minAgeSeconds) then .tooYoung
  else
    match t.uniqueBuyers with
    | none => .dataUnavailable
    | some n => if n < cfg.minUniqueBuyers then .fewBuyers else .ok

/-! ### The buffer -/

def pendingTtlSeconds : ℚ := 900

def maxPending : ℕ := 2000

def maxRemembered : ℕ := 20000

structure Monitor where
  pending : Dict Text Token
  emitted : SeenSet Text maxRemembered

def Monitor.init : Monitor := ⟨∅, ∅⟩

/-- What is told of a token: `ok` where it moves on, else the reason it is skipped for. -/
structure Report where
  token : Token
  reason : Reason
  deriving DecidableEq

def Report.mint (r : Report) : Text := r.token.mint

/-- Out of the buffer and into the remembered set. -/
def Monitor.decide (m : Monitor) (mint : Text) : Monitor :=
  ⟨m.pending.erase mint, m.emitted.add mint⟩

/-- Whether the token moves on, and what is told. -/
def promote (cfg : FilterSettings) (m : Monitor) (t : Token) (now : ℚ) :
    Bool × Monitor × List Report :=
  let reason := passesFilter cfg t now
  if reason = .ok then (true, m.decide t.mint, [⟨t, .ok⟩])
  else if reason = .tooYoung ∨ reason = .fewBuyers then (false, m, [])
  else (false, m.decide t.mint, [⟨t, reason⟩])

/-- Older than the lifetime of the buffer, by its own stamp. -/
def Token.stale (t : Token) (now : ℚ) : Bool :=
  (Stamp.fin pendingTtlSeconds).lt (t.createdTimestamp.since now)

/-- One token of a sweep. A token that does not move on is tested for its age too. -/
def sweepOne (cfg : FilterSettings) (now : ℚ) (m : Monitor) (mint : Text) :
    Monitor × List Report :=
  match m.pending.get mint with
  | none => (m, [])
  | some t =>
    let (moved, m', told) := promote cfg m t now
    if moved then (m', told)
    else if t.stale now then (m'.decide mint, told ++ [⟨t, .staleNoTraction⟩])
    else (m', told)

def sweepAll (cfg : FilterSettings) (now : ℚ) : Monitor → List Text → Monitor × List Report
  | m, [] => (m, [])
  | m, mint :: rest =>
    let (m₁, told) := sweepOne cfg now m mint
    let (m₂, more) := sweepAll cfg now m₁ rest
    (m₂, told ++ more)

def sweep (cfg : FilterSettings) (m : Monitor) (now : ℚ) : Monitor × List Report :=
  sweepAll cfg now m m.pending.keys

/-- The first entry with the least stamp. -/
def oldestOf (best : Text × Token) : List (Text × Token) → Text × Token
  | [] => best
  | x :: rest =>
    oldestOf (if x.2.createdTimestamp.lt best.2.createdTimestamp then x else best) rest

def evictOldest (m : Monitor) : Monitor × List Report :=
  match m.pending.entries with
  | [] => (m, [])
  | x :: rest =>
    let (mint, t) := oldestOf x rest
    (m.decide mint, [⟨t, .bufferOverflow⟩])

/-- Evict while the buffer is full; each round takes one entry out of it. -/
def evictWhile : ℕ → Monitor → Monitor × List Report
  | 0, m => (m, [])
  | n + 1, m =>
    if maxPending ≤ m.pending.entries.length then
      let (m₁, told) := evictOldest m
      let (m₂, more) := evictWhile n m₁
      (m₂, told ++ more)
    else (m, [])

def evictIfCrowded (m : Monitor) : Monitor × List Report :=
  evictWhile m.pending.entries.length m

/-- A parsed token that has not been reported goes into the buffer. -/
def admitToken (m : Monitor) (t : Token) : Monitor × List Report :=
  if t.mint ∈ m.emitted then (m, [])
  else
    let (m₁, told) := evictIfCrowded m
    (⟨m₁.pending.set t.mint t, m₁.emitted⟩, told)

def handleEvent (conv : Conversions) (m : Monitor) (payload : List (Text × Value)) (now : ℚ) :
    Except FloatError (Monitor × List Report) :=
  if !isCreate payload then .ok (m, [])
  else do
    match ← parseCreateEvent conv payload now with
    | some t => .ok (admitToken m t)
    | none => .ok (m, [])

end LaunchMonitor

end PumpGrok
