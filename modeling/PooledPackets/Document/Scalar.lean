import PooledPackets.Document.Token
import PooledPackets.Document.Value

/-!
# Simple values

The values of a TOML document that hold no others: texts, numbers, moments,
true and false.
-/

namespace PooledPackets.Document.Scalar

open Reader Token

/-! ## Integers -/

/-- Digits of a kind; a single underscore may stand between two of them. -/
def digits (isDigit : Char → Bool) : Reader (List Char) := do
  let first ← oneOf isDigit
  let others ← repeated <|
    oneOf isDigit <|> do
      word "_"
      must (expecting "digit" (oneOf isDigit))
  pure (first :: others)

/-- Decimal digits without a zero ahead of others. -/
def decimalDigits : Reader (List Char) := do
  match (← place).rest with
  | '0' :: _ => do
      word "0"
      pure ['0']
  | _ => digits Char.isDigit

/-- A sign, if there is one; whether it is a minus. -/
def sign : Reader Bool := do
  match ← Reader.optional (oneOf fun char => char == '+' || char == '-') with
  | some '-' => pure true
  | _ => pure false

/-- Decimal digits with a sign. -/
def signedDigits : Reader (Bool × List Char) := named "integer" do
  let negative ← sign
  let chars ← decimalDigits
  pure (negative, chars)

/-- An integer, if it fits 64 bits with a sign. -/
def word64 (negative : Bool) (size : Nat) : Except (Option Objection) Value :=
  let value : Int := if negative then -(size : Int) else size
  if value < -(Nat.pow 2 63) then .error (some .numberTooSmall)
  else if Nat.pow 2 63 ≤ value then .error (some .numberTooLarge)
  else .ok (.integer value)

/-- An integer in a base that is named ahead of its digits. -/
def basedInteger (mark subject : String) (base : Nat)
    (isDigit : Char → Bool) : Reader Value := do
  peek (word mark)
  let based : Reader (List Char) := named subject do
    word mark
    must (digits isDigit)
  must (based.checked fun chars => word64 false (Text.valueIn base chars))

def decimalInteger : Reader Value :=
  signedDigits.settled fun (negative, chars) =>
    word64 negative (Text.valueIn 10 chars)

def integer : Reader Value :=
  basedInteger "0x" "hexadecimal integer" 16 isHexDigit
  <|> basedInteger "0o" "octal integer" 8
    (fun char => '0' ≤ char && char ≤ '7')
  <|> basedInteger "0b" "binary integer" 2
    (fun char => char == '0' || char == '1')
  <|> decimalInteger

/-! ## Real numbers -/

def fraction : Reader (List Char) := do
  word "."
  must (expecting "digit" (digits Char.isDigit))

def tenPower : Reader Int := do
  let _ ← oneOf fun char => char == 'e' || char == 'E'
  let negative ← sign
  let size := Text.valueIn 10 (← must (digits Char.isDigit))
  pure (if negative then -(size : Int) else size)

/-- The digits after the point and the power of ten; one of them must be
there. -/
def realEnd : Reader (List Char × Int) :=
  (do
    let power ← tenPower
    pure ([], power))
  <|> (do
    let after ← fraction
    let power ← Reader.optional tenPower
    pure (after, power.getD 0))

/-- A number with a point or a power of ten, in its parts. -/
def realParts : Reader (Bool × Decimal) := do
  let (negative, before) ← signedDigits
  let (after, power) ← realEnd
  pure (negative,
    ⟨Text.valueIn 10 (before ++ after), power - after.length⟩)

/-- A number with a point or a power of ten. It must not be too large. -/
def pointedReal : Reader Value :=
  realParts.settled fun (negative, size) =>
    match Binary64.ofDecimal negative size with
    | .infinite false => .error none
    | number => .ok (.real number)

def infinity (negative : Bool) : Reader Value := do
  word "inf"
  pure (.real (.infinite negative))

def undefined : Reader Value := do
  word "nan"
  pure (.real .undefined)

/-- A number without digits. -/
def namedReal : Reader Value := do
  let negative ← sign
  infinity negative <|> undefined

def real : Reader Value :=
  named "floating-point number" (pointedReal <|> namedReal)

/-! ## Moments -/

/-- A number of so many digits within bounds. -/
def bounded (count least greatest : Nat) : Reader Nat :=
  (exactly Char.isDigit count).checked fun chars =>
    let value := Text.valueIn 10 chars
    if least ≤ value ∧ value ≤ greatest then .ok value
    else .error (some .outOfRange)

def isLeapYear (year : Nat) : Bool :=
  year % 4 == 0 && (year % 100 != 0 || year % 400 == 0)

def daysIn (year month : Nat) : Nat :=
  if month = 2 then (if isLeapYear year then 29 else 28)
  else if month = 4 ∨ month = 6 ∨ month = 9 ∨ month = 11 then 30
  else 31

/-- A day of a year. After the year nothing else can follow. -/
def date : Reader Unit := do
  let year ← bounded 4 0 9999
  word "-"
  let month ← must (bounded 2 1 12)
  must (word "-")
  let _ ← must (bounded 2 1 (daysIn year month))

/-- A time of a day. The 60th second is for leap seconds. After the hour
nothing else can follow. -/
def time : Reader Unit := do
  let _ ← bounded 2 0 23
  word ":"
  let _ ← must (bounded 2 0 59)
  must (word ":")
  let _ ← must (bounded 2 0 60)
  let _ ← Reader.optional do
    word "."
    stretch1 Char.isDigit

/-- The distance of a local time from universal time. -/
def offset : Reader Unit := named "time offset" <|
  word "Z" <|> word "z" <|> do
    let _ ← oneOf fun char => char == '+' || char == '-'
    let _ ← must (bounded 2 0 23)
    must (word ":")
    let _ ← must (bounded 2 0 59)

/-- A date, which may have a time. -/
def dateWithTime : Reader Unit := named "date-time" do
  date
  let _ ← Reader.optional do
    let _ ← oneOf fun char => char == 'T' || char == 't' || char == ' '
    time
    Reader.optional offset

/-- A moment, with the text that it was read from. -/
def moment : Reader Value := do
  let before ← place
  dateWithTime <|> named "time" time
  let after ← place
  let length := before.rest.length - after.rest.length
  pure (.moment (String.ofList (before.rest.take length)))

/-! ## All together -/

def boolean (value : Bool) : Reader Value := do
  must (word (toString value))
  pure (.boolean value)

/-- A simple value. Its first character says what it is; numbers can start in
the same way as moments. -/
def read : Reader Value := do
  match (← place).rest with
  | [] => fail
  | first :: _ =>
      if first = '"' ∨ first = '\'' then Value.string <$> string
      else if first.isDigit ∨ first = '+' ∨ first = '-' then
        moment <|> real <|> integer
      else if first = '_' then expecting "leading digit" integer
      else if first = '.' then expecting "leading digit" real
      else if first = 't' then boolean true
      else if first = 'f' then boolean false
      else if first = 'i' then infinity false
      else if first = 'n' then undefined
      else
        named "string" <|
          (fail.expecting (Objection.ticked "\"")).expecting
            (Objection.ticked "'")

end PooledPackets.Document.Scalar
