import PumpGrok.Lib.PyText

/-!
Number literals as Python's `int` and `Decimal` read them.
-/

namespace PumpGrok

namespace PyText

/-- The sign of a literal, and the rest. -/
def takeSign : List Char → Bool × List Char
  | '-' :: t => (true, t)
  | '+' :: t => (false, t)
  | t => (false, t)

def signed (neg : Bool) (n : ℕ) : ℤ := if neg then -n else n

/-- A run of one or more digits. -/
def isDigits (t : List Char) : Bool := t ≠ [] && t.all isDecimal

/-- How many digits `int` converts. -/
def maxStrDigits : ℕ := 4300

/-- `int(t)`: digits with single underscores between them. -/
def intLiteral (t : List Char) : Option ℤ :=
  let (neg, body) := takeSign (strip t)
  let digits := body.filter (· ≠ '_')
  if (body.splitOn '_').all isDigits && digits.length ≤ maxStrDigits then
    some (signed neg (intOf digits))
  else none

inductive Decimal where
  | finite (q : ℚ)
  | infinite
  | nan
  deriving DecidableEq

/-- The exponent of a literal: none, or an indicator and a signed run of digits. -/
def exponent : List Char → Option ℤ
  | [] => some 0
  | _ :: t =>
    let (neg, digits) := takeSign t
    if isDigits digits then some (signed neg (intOf digits)) else none

/-- A finite literal without its sign. -/
def finiteLiteral (t : List Char) : Option ℚ :=
  let mantissa := t.takeWhile fun c => c ≠ 'e' && c ≠ 'E'
  let whole := mantissa.takeWhile (· ≠ '.')
  let fraction := (mantissa.drop whole.length).drop 1
  match exponent (t.drop mantissa.length) with
  | some e =>
    if isDigits (whole ++ fraction) then
      some ((intOf (whole ++ fraction) : ℚ) * 10 ^ (e - fraction.length))
    else none
  | none => none

/-- `Decimal(t)`; underscores are dropped. -/
def decimalLiteral (t : List Char) : Option Decimal :=
  let (neg, body) := takeSign ((strip t).filter (· ≠ '_'))
  let lower := body.map Char.toLower
  if lower = "inf".toList || lower = "infinity".toList then some .infinite
  else if "nan".toList.isPrefixOf lower && (lower.drop 3).all isDecimal then some .nan
  else if "snan".toList.isPrefixOf lower && (lower.drop 4).all isDecimal then some .nan
  else (finiteLiteral body).map fun q => .finite (if neg then -q else q)

example : decimalLiteral "-1_2.50e-1".toList = some (.finite (-5 / 4)) := by decide +kernel

/-- The words of a text; the first argument is the current one in reverse. -/
def splitAux : List Char → List Char → List (List Char)
  | cur, [] => if cur = [] then [] else [cur.reverse]
  | cur, c :: r =>
    if isSpace c then (if cur = [] then splitAux [] r else cur.reverse :: splitAux [] r)
    else splitAux (c :: cur) r

def split (t : List Char) : List (List Char) := splitAux [] t

end PyText

end PumpGrok
