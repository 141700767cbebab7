import PooledPackets.Config
import PooledPackets.Text.Digits

/-!
# Numbers in arguments

A number that is given to the load program has decimal digits, with a plus
ahead of them if wanted. It is read digit by digit: the first thing that is
wrong is reported.
-/

namespace PooledPackets.Load

/-- Why a text is no number. -/
inductive CountError where
  | empty
  | invalidDigit
  | tooLarge
  deriving DecidableEq, Repr

def CountError.message : CountError → String
  | .empty => "cannot parse integer from empty string"
  | .invalidDigit => "invalid digit found in string"
  | .tooLarge => "number too large to fit in target type"

namespace Count

/-- The number that goes on with some digits. -/
def extend (value : Nat) : List Char → Except CountError Nat
  | [] => .ok value
  | digit :: rest =>
      if !digit.isDigit then .error .invalidDigit
      else
        match Config.word? (10 * value + Text.digitValue digit) with
        | none => .error .tooLarge
        | some longer => extend longer rest

def read (text : String) : Except CountError Nat :=
  match text.toList with
  | [] => .error .empty
  | ['+'] => .error .invalidDigit
  | '+' :: digits => extend 0 digits
  | digits => extend 0 digits

end Count

end PooledPackets.Load
