import PumpGrok.Lib.ByteReader
import PumpGrok.Core.Types

/-!
Payloads of program data: an eight-byte discriminator and the fields of one of five events in
Borsh. Bytes after the last field are ignored.

The records are read over the types of their keys, strings and flags: on the wire thirty-two
bytes, length-prefixed bytes and one byte; decoded, texts and truth values.
-/

namespace PumpGrok

namespace PumpEvents

/-! ### Keys in base 58 -/

def base58Alphabet : List Char :=
  "123456789ABCDEFGHJKLMNPQRSTUVWXYZabcdefghijkmnopqrstuvwxyz".toList

def base58 (raw : Bytes) : Text :=
  let number := Nat.ofDigits 256 (raw.reverse.map UInt8.toNat)
  let digits := (Nat.digits 58 number).map fun remainder => base58Alphabet.getD remainder '1'
  let leadingZeroBytes := (raw.takeWhile (· = 0)).length
  List.replicate leadingZeroBytes '1' ++ digits.reverse

/-! ### Errors -/

inductive EventDecodeError where
  | shortDiscriminator (length : ℕ)
  | unknownDiscriminator (discriminator : Bytes)
  | truncated (count offset length : ℕ)
  | invalidBool (byte : UInt8) (offset : ℕ)
  | invalidUtf8
  | invalidBase64
  deriving DecidableEq

/-- What decoding may raise; the last two are errors of unpacking and indexing. -/
inductive Raised where
  | eventDecode (e : EventDecodeError)
  | structError
  | indexError
  deriving DecidableEq

def Raised.IsDecodeError : Raised → Prop
  | .eventDecode _ => True
  | _ => False

/-! ### The reader -/

abbrev Reading (α : Type) : Type := Prog Reader Raised α

def take (count : ℕ) : Reading Bytes :=
  Reader.take (fun n offset length => .eventDecode (.truncated n offset length)) count

/-- Unpack one little-endian word of `width` bytes. -/
def unpack (width : ℕ) (chunk : Bytes) : Reading ℕ :=
  if chunk.length = width then pure (Bytes.leNat chunk) else Prog.raise .structError

def u32 : Reading ℕ := do unpack 4 (← take 4)

def u64 : Reading UInt64 := do return UInt64.ofNat (← unpack 8 (← take 8))

def i64 : Reading Int64 := do return (UInt64.ofNat (← unpack 8 (← take 8))).toInt64

def boolean : Reading Bool := do
  match ← take 1 with
  | [] => Prog.raise .indexError
  | byte :: _ =>
    Prog.raiseIf (1 < byte) (.eventDecode (.invalidBool byte ((← Prog.read Reader.pos) - 1)))
    return byte = 1

def pubkey : Reading Text := do return base58 (← take 32)

def string : Reading Text := do
  let length ← u32
  let raw ← take length
  match Bytes.decode raw with
  | some text => return text
  | none => Prog.raise (.eventDecode .invalidUtf8)

/-! ### The events -/

structure TradeEvent (K S B : Type) where
  mint : K
  solAmount : UInt64
  tokenAmount : UInt64
  isBuy : B
  user : K
  timestamp : Int64
  virtualSolReserves : UInt64
  virtualTokenReserves : UInt64
  realSolReserves : UInt64
  realTokenReserves : UInt64
  feeRecipient : K
  feeBasisPoints : UInt64
  fee : UInt64
  creator : K
  creatorFeeBasisPoints : UInt64
  creatorFee : UInt64
  trackVolume : B
  totalUnclaimedTokens : UInt64
  totalClaimedTokens : UInt64
  currentSolVolume : UInt64
  lastUpdateTimestamp : Int64
  ixName : S
  mayhemMode : B
  deriving DecidableEq

structure CreateEvent (K S : Type) where
  name : S
  symbol : S
  uri : S
  mint : K
  bondingCurve : K
  user : K
  creator : K
  timestamp : Int64
  virtualTokenReserves : UInt64
  virtualSolReserves : UInt64
  realTokenReserves : UInt64
  tokenTotalSupply : UInt64
  deriving DecidableEq

structure CompleteEvent (K : Type) where
  user : K
  mint : K
  bondingCurve : K
  timestamp : Int64
  deriving DecidableEq

structure CompletePumpAmmMigrationEvent (K : Type) where
  user : K
  mint : K
  mintAmount : UInt64
  solAmount : UInt64
  poolMigrationFee : UInt64
  bondingCurve : K
  timestamp : Int64
  pool : K
  deriving DecidableEq

structure PostCompleteBuyEvent (K : Type) where
  user : K
  mint : K
  solAmount : UInt64
  tokenAmount : UInt64
  timestamp : Int64
  deriving DecidableEq

inductive PumpEvent (K S B : Type) where
  | trade (e : TradeEvent K S B)
  | create (e : CreateEvent K S)
  | complete (e : CompleteEvent K)
  | migration (e : CompletePumpAmmMigrationEvent K)
  | postCompleteBuy (e : PostCompleteBuyEvent K)
  deriving DecidableEq

def decodeTrade : Reading (TradeEvent Text Text Bool) := do
  return {
    mint := ← pubkey
    solAmount := ← u64
    tokenAmount := ← u64
    isBuy := ← boolean
    user := ← pubkey
    timestamp := ← i64
    virtualSolReserves := ← u64
    virtualTokenReserves := ← u64
    realSolReserves := ← u64
    realTokenReserves := ← u64
    feeRecipient := ← pubkey
    feeBasisPoints := ← u64
    fee := ← u64
    creator := ← pubkey
    creatorFeeBasisPoints := ← u64
    creatorFee := ← u64
    trackVolume := ← boolean
    totalUnclaimedTokens := ← u64
    totalClaimedTokens := ← u64
    currentSolVolume := ← u64
    lastUpdateTimestamp := ← i64
    ixName := ← string
    mayhemMode := ← boolean }

def decodeCreate : Reading (CreateEvent Text Text) := do
  return {
    name := ← string
    symbol := ← string
    uri := ← string
    mint := ← pubkey
    bondingCurve := ← pubkey
    user := ← pubkey
    creator := ← pubkey
    timestamp := ← i64
    virtualTokenReserves := ← u64
    virtualSolReserves := ← u64
    realTokenReserves := ← u64
    tokenTotalSupply := ← u64 }

def decodeComplete : Reading (CompleteEvent Text) := do
  return {
    user := ← pubkey
    mint := ← pubkey
    bondingCurve := ← pubkey
    timestamp := ← i64 }

def decodeMigration : Reading (CompletePumpAmmMigrationEvent Text) := do
  return {
    user := ← pubkey
    mint := ← pubkey
    mintAmount := ← u64
    solAmount := ← u64
    poolMigrationFee := ← u64
    bondingCurve := ← pubkey
    timestamp := ← i64
    pool := ← pubkey }

def decodePostCompleteBuy : Reading (PostCompleteBuyEvent Text) := do
  return {
    user := ← pubkey
    mint := ← pubkey
    solAmount := ← u64
    tokenAmount := ← u64
    timestamp := ← i64 }

/-- The five event types. -/
inductive Kind where
  | trade
  | create
  | complete
  | migration
  | postCompleteBuy
  deriving DecidableEq

def Kind.discriminator : Kind → Bytes
  | .trade => [0xbd, 0xdb, 0x7f, 0xd3, 0x4e, 0xe6, 0x61, 0xee]
  | .create => [0x1b, 0x72, 0xa9, 0x4d, 0xde, 0xeb, 0x63, 0x76]
  | .complete => [0x5f, 0x72, 0x61, 0x9c, 0xd4, 0x2e, 0x98, 0x08]
  | .migration => [0xbd, 0xe9, 0x5d, 0xb9, 0x5c, 0x94, 0xea, 0x94]
  | .postCompleteBuy => [0x6f, 0xb0, 0x6d, 0x8b, 0x31, 0x6c, 0xd5, 0xfb]

def Kind.decoder : Kind → Reading (PumpEvent Text Text Bool)
  | .trade => do return .trade (← decodeTrade)
  | .create => do return .create (← decodeCreate)
  | .complete => do return .complete (← decodeComplete)
  | .migration => do return .migration (← decodeMigration)
  | .postCompleteBuy => do return .postCompleteBuy (← decodePostCompleteBuy)

def decoders (discriminator : Bytes) : Option Kind :=
  [Kind.trade, .create, .complete, .migration, .postCompleteBuy].find?
    (·.discriminator = discriminator)

/-- One event from its bytes, the discriminator first. -/
def decodeEvent (raw : Bytes) : Except Raised (PumpEvent Text Text Bool) :=
  if raw.length < 8 then .error (.eventDecode (.shortDiscriminator raw.length))
  else
    match decoders (raw.take 8) with
    | none => .error (.eventDecode (.unknownDiscriminator (raw.take 8)))
    | some kind => (kind.decoder ⟨raw.drop 8, 0⟩).1

/-- One base64 payload; `b64decode` gives nothing where it raises `ValueError`. -/
def decodeProgramData (b64decode : Text → Option Bytes) (encoded : Text) :
    Except Raised (PumpEvent Text Text Bool) :=
  match b64decode encoded with
  | none => .error (.eventDecode .invalidBase64)
  | some raw => decodeEvent raw

end PumpEvents

end PumpGrok
