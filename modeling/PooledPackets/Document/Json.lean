import PooledPackets.Config
import PooledPackets.Document.Token
import PooledPackets.Document.Value
import PooledPackets.Number.Stepwise

/-!
# JSON documents

A number with a point or a power of ten is real, however it comes out; so is
an integer that does not fit 64 bits. The names of an object are put in order,
and of several values under one name the last one counts.
-/

namespace PooledPackets.Document.Json

open Reader

/-! ## Blanks and texts -/

def gap : Reader Unit := do
  let _ ← stretch fun char =>
    char == ' ' || char == '\t' || char == '\n' || char == '\r'

/-- Whether a character may stand in a text as it is. -/
def isPlain (char : Char) : Bool :=
  ' ' ≤ char && char != '"' && char != '\\'

def fourDigits : Reader Nat := do
  pure (Text.valueIn 16 (← exactly Token.isHexDigit 4))

/-- A character by its number. A number beyond the first plane takes two
escapes. -/
def numberedChar : Reader Char := do
  let first ← fourDigits
  if 0xD800 ≤ first ∧ first < 0xDC00 then do
    word "\\u"
    let second ← fourDigits
    if 0xDC00 ≤ second ∧ second < 0xE000 then
      pure (Char.ofNat (0x10000 + (first - 0xD800) * 0x400 + (second - 0xDC00)))
    else fail
  else if 0xDC00 ≤ first ∧ first < 0xE000 then fail
  else pure (Char.ofNat first)

/-- The characters with an escape of one letter. -/
def letterEscapes : List (Char × Char) :=
  [('b', '\x08'), ('t', '\t'), ('n', '\n'), ('f', '\x0c'), ('r', '\r'),
    ('"', '"'), ('\\', '\\'), ('/', '/')]

/-- A character written as an escape. -/
def escape : Reader (List Char) := do
  word "\\"
  let letter ← oneOf (fun _ => true)
  match letterEscapes.lookup letter with
  | some char => pure [char]
  | none => if letter = 'u' then (fun char => [char]) <$> numberedChar else fail

def string : Reader String := do
  word "\""
  let pieces ← repeated (stretch1 isPlain <|> escape)
  word "\""
  pure (String.ofList pieces.flatten)

/-! ## Numbers -/

/-- Digits that are taken as long as they fit 64 bits; how many were taken, and
the rest. -/
def fittingDigits (value taken : Nat) :
    List Char → Nat × Nat × List Char
  | [] => (value, taken, [])
  | digit :: rest =>
      match Config.word? (10 * value + Text.digitValue digit) with
      | none => (value, taken, digit :: rest)
      | some longer => fittingDigits longer (taken + 1) rest

/-- Digits before a point. No zero stands ahead of others. -/
def wholeDigits : Reader (List Char) :=
  (stretch1 Char.isDigit).checked fun digits =>
    if digits.head? = some '0' ∧ 1 < digits.length then .error none
    else .ok digits

/-- A power of ten. -/
def tenPower : Reader Int := do
  let _ ← oneOf fun char => char == 'e' || char == 'E'
  let sign ← Reader.optional (oneOf fun char => char == '+' || char == '-')
  let size := Text.valueIn 10 (← stretch1 Char.isDigit)
  pure (if sign = some '-' then -(size : Int) else size)

/-- A number in its parts, as far as its digits are looked at. -/
def decimalOf (whole : List Char) (fraction : Option (List Char))
    (power : Int) : Decimal :=
  let (value, _, dropped) := fittingDigits 0 0 whole
  let (value, places, _) := fittingDigits value 0 (fraction.getD [])
  ⟨value, power + dropped.length - places⟩

/-- A real number with a sign, if it is not too large. -/
def realOf (negative : Bool) (decimal : Decimal) :
    Except (Option Objection) Value :=
  match Binary.ofDecimal? decimal with
  | none => .error (some .outOfRange)
  | some size => .ok (.real (.finite negative size))

/-- The number of some parts. -/
def numberOf (negative : Bool) (whole : List Char)
    (fraction : Option (List Char)) (power : Option Int) :
    Except (Option Objection) Value :=
  let value := Text.valueIn 10 whole
  let fits :=
    if negative then 0 < value ∧ value ≤ Nat.pow 2 63 else value < Config.wordSize
  if fraction.isNone ∧ power.isNone ∧ fits then
    .ok (.integer (if negative then -(value : Int) else value))
  else realOf negative (decimalOf whole fraction (power.getD 0))

def number : Reader Value := do
  let sign ← Reader.optional (word "-")
  let whole ← wholeDigits
  let fraction ← Reader.optional do
    word "."
    must (stretch1 Char.isDigit)
  let power ← Reader.optional tenPower
  match numberOf sign.isSome whole fraction power with
  | .ok value => pure value
  | .error _ => fail

/-! ## Values -/

/-- Puts a value under a name between the names before and behind it. -/
def put (name : String) (value : Located Value) :
    List (Located String × Located Value) →
      List (Located String × Located Value)
  | [] => [(.nowhere name, value)]
  | (other, old) :: rest =>
      if name < other.content then (.nowhere name, value) :: (other, old) :: rest
      else if name = other.content then (other, value) :: rest
      else (other, old) :: put name value rest

/-- Values between two marks, with commas between them. -/
def enclosed {α : Type} (first last : String) (item : Reader α) :
    Reader (List α) := do
  word first
  gap
  let items ← Reader.optional (separated (item <* gap) (do word ","; gap))
  word last
  pure (items.getD [])

def entry (value : Reader (Located Value)) :
    Reader (String × Located Value) := do
  let name ← string
  gap
  word ":"
  gap
  let value ← value
  pure (name, value)

def object (value : Reader (Located Value)) : Reader Value := do
  let entries ← enclosed "\x7b" "\x7d" (entry value)
  pure (.record (entries.foldl (fun fields (name, value) =>
    put name value fields) []))

def simple : Reader Value :=
  (do word "null"; pure .null)
  <|> (do word "true"; pure (.boolean true))
  <|> (do word "false"; pure (.boolean false))
  <|> Value.string <$> string
  <|> number

def valueReader : (depth : Nat) → Reader (Located Value)
  | 0 => Located.nowhere <$> simple
  | depth + 1 => Located.nowhere <$>
      (Value.list <$> enclosed "[" "]" (valueReader depth)
      <|> object (valueReader depth)
      <|> simple)

def maxDepth : Nat := 127

def documentReader : Reader (Located Value) := do
  gap
  let value ← valueReader maxDepth
  gap
  atEnd
  pure value

end Json

/-- The document that a text in JSON stands for. -/
def readJson? (text : String) : Option (Located Value) :=
  match Json.documentReader (.ofText text) with
  | .ok (value, _) => some value
  | .error _ => none

end PooledPackets.Document
