import PooledPackets.Config
import PooledPackets.Text.Blank
import PooledPackets.Text.Digits
import PooledPackets.Text.Quoted

/-!
# Spans of time as text

A span is written as a sequence of parts, each a number and a unit, which are
added up: `1h 30m`, `1.5s`, `250ms`. No time at all can be written without a
unit, as `0`. The text is read character by character; positions in it are
counted in bytes.
-/

namespace PooledPackets

inductive DurationError where
  | empty
  | numberExpected (position : Nat)
  | invalidCharacter (position : Nat)
  /-- A number stands without a unit. -/
  | unitNeeded (number : Nat)
  | unknownUnit (name : String)
  /-- The span does not fit, or it is no whole number of nanoseconds. -/
  | notRepresentable
  deriving DecidableEq, Repr

namespace DurationError

def message : DurationError → String
  | empty => "value was empty"
  | numberExpected position => s!"expected number at {position}"
  | invalidCharacter position => s!"invalid character at {position}"
  | unitNeeded number =>
      s!"time unit needed, for example {number}sec or {number}ms"
  | unknownUnit name =>
      "unknown time unit " ++ Text.quoted name ++
        ", supported units: ns, us/µs, ms, sec, min, hours, days, weeks, months, years (and few variations)"
  | notRepresentable =>
      "number is too large or cannot be represented without a lack of precision (values below 1ns are not supported)"

end DurationError

namespace Duration

/-! ## Units -/

/-- What a number before a unit counts. -/
inductive Scale where
  | seconds (factor : Nat)
  | nanoseconds (factor : Nat)
  deriving DecidableEq, Repr

/-- A unit of time: what its whole numbers count and what its fractions are
fractions of. -/
structure TimeUnit where
  whole : Scale
  fraction : Option Scale
  deriving DecidableEq, Repr

def unit? (name : String) : Option TimeUnit :=
  if name ∈ ["nanos", "nsec", "ns"] then
    some ⟨.nanoseconds 1, none⟩
  else if name ∈ ["usec", "us", "µs"] then
    some ⟨.nanoseconds 1000, some (.nanoseconds 1000)⟩
  else if name ∈ ["millis", "msec", "ms"] then
    some ⟨.nanoseconds 1000000, some (.nanoseconds 1000000)⟩
  else if name ∈ ["seconds", "second", "secs", "sec", "s"] then
    some ⟨.seconds 1, some (.nanoseconds 1000000000)⟩
  else if name ∈ ["minutes", "minute", "min", "mins", "m"] then
    some ⟨.seconds 60, some (.nanoseconds 60000000000)⟩
  else if name ∈ ["hours", "hour", "hr", "hrs", "h"] then
    some ⟨.seconds 3600, some (.seconds 3600)⟩
  else if name ∈ ["days", "day", "d"] then
    some ⟨.seconds 86400, some (.seconds 86400)⟩
  else if name ∈ ["weeks", "week", "wk", "wks", "w"] then
    some ⟨.seconds 604800, some (.seconds 604800)⟩
  else if name ∈ ["months", "month", "M"] then
    some ⟨.seconds 2630016, some (.seconds 2630016)⟩
  else if name ∈ ["years", "year", "yr", "yrs", "y"] then
    some ⟨.seconds 31557600, some (.seconds 31557600)⟩
  else none

def isUnitChar (char : Char) : Bool :=
  ('a' ≤ char && char ≤ 'z') || ('A' ≤ char && char ≤ 'Z') || char == 'µ'

/-! ## Adding up -/

/-- A number that fits a machine word. -/
def fitting (number : Nat) : Except DurationError Nat :=
  match Config.word? number with
  | none => .error .notRepresentable
  | some number => .ok number

/-- The sum of a span and so many seconds and nanoseconds. -/
def plus (span : Duration) (seconds nanoseconds : Nat) :
    Except DurationError Duration := do
  let fine ← fitting (span.subsecond + nanoseconds)
  let coarse ← fitting (span.seconds + seconds + fine / perSecond)
  pure ⟨coarse * perSecond + fine % perSecond⟩

/-- The sum of a span and an amount on a scale. -/
def plusScaled (span : Duration) (scale : Scale) (amount : Nat → Except
    DurationError Nat) : Except DurationError Duration := do
  match scale with
  | .seconds factor => span.plus (← amount factor) 0
  | .nanoseconds factor => span.plus 0 (← amount factor)

/-- A number with a fraction: the digits behind the point as a numerator, and
the power of ten below it. -/
structure Amount where
  whole : Nat
  fraction : Option (Nat × Nat)
  deriving DecidableEq, Repr

/-- A part of a unit that must come out even. -/
def evenPart (numerator denominator factor : Nat) :
    Except DurationError Nat := do
  let scaled ← fitting (numerator * factor)
  if scaled % denominator = 0 then pure (scaled / denominator)
  else throw .notRepresentable

/-- The sum of a span and a part of it that was just read. -/
def plusPart (span : Duration) (amount : Amount) (name : String) :
    Except DurationError Duration := do
  match unit? name with
  | none => throw (.unknownUnit name)
  | some unit =>
      let longer ← span.plusScaled unit.whole fun factor =>
        fitting (amount.whole * factor)
      match amount.fraction, unit.fraction with
      | none, _ => pure longer
      | some _, none => throw .notRepresentable
      | some (numerator, denominator), some scale =>
          longer.plusScaled scale (evenPart numerator denominator)

/-! ## Reading -/

/-- How far a text was read, besides the span so far. -/
inductive Progress where
  /-- A number is to come; nothing but blanks since a position. -/
  | before (since : Nat) (first : Bool)
  /-- Inside a number. -/
  | inNumber (number : Nat)
  /-- Behind the point of a number; `mark` is the position to blame. -/
  | inFraction (number numerator denominator mark : Nat)
  /-- Inside the name of a unit, its letters latest first. -/
  | inUnit (amount : Amount) (letters : List Char)
  deriving DecidableEq, Repr

/-- Reads the next character, which stands at a position. -/
def advance (span : Duration) (position : Nat) (char : Char) :
    Progress → Except DurationError (Duration × Progress)
  | .before since first =>
      if char.isDigit then .ok (span, .inNumber (Text.digitValue char))
      else if Text.isBlank char then .ok (span, .before since first)
      else .error (.numberExpected since)
  | .inNumber number =>
      if char.isDigit then do
        let longer ← fitting (10 * number + Text.digitValue char)
        pure (span, .inNumber longer)
      else if Text.isBlank char then .ok (span, .inNumber number)
      else if isUnitChar char then .ok (span, .inUnit ⟨number, none⟩ [char])
      else if char == '.' then .ok (span, .inFraction number 0 1 position)
      else .error (.invalidCharacter position)
  | .inFraction number numerator denominator mark =>
      let next := position + char.utf8Size
      if char.isDigit then do
        let denominator ← fitting (10 * denominator)
        let numerator ← fitting (10 * numerator + Text.digitValue char)
        pure (span, .inFraction number numerator denominator next)
      else if Text.isBlank char then
        .ok (span, .inFraction number numerator denominator next)
      else if isUnitChar char ∧ denominator ≠ 1 then
        .ok (span, .inUnit ⟨number, some (numerator, denominator)⟩ [char])
      else .error (.invalidCharacter mark)
  | .inUnit amount letters =>
      if char.isDigit then do
        let longer ← span.plusPart amount (.ofList letters.reverse)
        pure (longer, .inNumber (Text.digitValue char))
      else if Text.isBlank char then do
        let longer ← span.plusPart amount (.ofList letters.reverse)
        pure (longer, .before (position + char.utf8Size) false)
      else if isUnitChar char then .ok (span, .inUnit amount (char :: letters))
      else .error (.invalidCharacter position)

/-- The span when the text is over. -/
def conclude (span : Duration) : Progress → Except DurationError Duration
  | .before _ first => if first then .error .empty else .ok span
  | .inNumber number => .error (.unitNeeded number)
  | .inFraction number _ denominator mark =>
      if denominator = 1 then .error (.invalidCharacter mark)
      else .error (.unitNeeded number)
  | .inUnit amount letters => span.plusPart amount (.ofList letters.reverse)

/-- Reads characters from a position on. -/
def readFrom (span : Duration) (progress : Progress) (position : Nat) :
    List Char → Except DurationError Duration
  | [] => span.conclude progress
  | char :: rest =>
      match span.advance position char progress with
      | .error error => .error error
      | .ok (span, progress) =>
          readFrom span progress (position + char.utf8Size) rest

def read (text : String) : Except DurationError Duration :=
  if text = "0" then .ok ⟨0⟩
  else readFrom ⟨0⟩ (.before 0 true) 0 text.toList

end Duration

end PooledPackets
