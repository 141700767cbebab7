import PooledPackets.Config
import PooledPackets.Text.Blank
import PooledPackets.Text.Digits
import PooledPackets.Text.UpperCase

/-!
# Sizes as text

A size is written as a decimal number of bytes, of kilobytes (`K` or `KB`) or
of megabytes (`M` or `MB`), in either case and with blanks around the number
and the unit.
-/

namespace PooledPackets

inductive SizeError where
  | empty
  | noNumber
  /-- The number does not fit a machine word. -/
  | numberTooLarge (digits : String)
  /-- The unit, in upper case, is not known. -/
  | unknownSuffix (suffix : String)
  /-- The number of bytes does not fit a machine word. -/
  | overflow (size : String)
  deriving DecidableEq, Repr

namespace SizeError

def message : SizeError → String
  | empty => "empty size string"
  | noNumber => "invalid number '': cannot parse integer from empty string"
  | numberTooLarge digits =>
      s!"invalid number '{digits}': number too large to fit in target type"
  | unknownSuffix suffix => s!"unknown size suffix '{suffix}'"
  | overflow size => s!"size '{size}' overflows"

end SizeError

namespace Size

/-- The bytes in a unit, by its name in upper case. -/
def unit? (name : List Char) : Option Nat :=
  if name = [] ∨ name = ['B'] then some 1
  else if name = ['K'] ∨ name = ['K', 'B'] then some 1024
  else if name = ['M'] ∨ name = ['M', 'B'] then some (1024 * 1024)
  else none

/-- The size that a text without surrounding blanks stands for. -/
def readTrimmed (text : List Char) : Except SizeError Nat :=
  let digits := text.takeWhile Char.isDigit
  let suffix := text.dropWhile Char.isDigit
  if text = [] then .error .empty
  else if digits = [] then .error .noNumber
  else
    match Config.word? (Text.valueIn 10 digits) with
    | none => .error (.numberTooLarge (.ofList digits))
    | some number =>
        let name := Text.upperCase (Text.trim suffix)
        match unit? name with
        | none => .error (.unknownSuffix (.ofList name))
        | some unit =>
            match Config.word? (number * unit) with
            | none => .error (.overflow (.ofList text))
            | some size => .ok size

/-- The size that a text stands for, in bytes. -/
def read (text : List Char) : Except SizeError Nat :=
  readTrimmed (Text.trim text)

end Size

end PooledPackets
