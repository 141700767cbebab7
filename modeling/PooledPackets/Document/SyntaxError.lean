import PooledPackets.Document.Span

/-!
# Errors in the text of a document

A text that is no document is told by a place where it could not be read on:
what was being read, what could have stood there, and what is wrong with what
was read before.
-/

namespace PooledPackets.Document

/-- What is wrong with something that has the right form. -/
inductive Objection where
  | outOfRange
  | numberTooLarge
  | numberTooSmall
  /-- Values stand within too many others. -/
  | tooDeep
  /-- A name has been used before, in a table at some path if that is known. -/
  | repeatedName (name : String) (table : Option (List String))
  /-- A path leads through a value of some kind that is no table. -/
  | notTable (path : List String) (kind : String)
  deriving DecidableEq, Repr

namespace Objection

def ticked (name : String) : String :=
  "\x60" ++ name ++ "\x60"

/-- Where a name has been used before. -/
def tablePhrase : Option (List String) → String
  | none => ""
  | some [] => " in document root"
  | some path => " in table " ++ ticked (".".intercalate path)

def message : Objection → String
  | outOfRange => "value is out of range"
  | numberTooLarge => "number too large to fit in target type"
  | numberTooSmall => "number too small to fit in target type"
  | tooDeep => "recursion limit exceeded"
  | repeatedName name table =>
      "duplicate key " ++ ticked name ++ tablePhrase table
  | notTable path kind =>
      "dotted key " ++ ticked (".".intercalate path) ++
        " attempted to extend non-table type (" ++ kind ++ ")"

end Objection

/-- Why a text could not be read on. -/
structure SyntaxError where
  /-- The character that stands in the way; at the end of the text, nothing. -/
  span : Span
  /-- What was being read. -/
  subject : Option String
  /-- What could have stood at the place. -/
  expected : List String
  objection : Option Objection
  deriving DecidableEq, Repr

namespace SyntaxError

/-- The sentence about what could have stood at the place. -/
def expectedLine (error : SyntaxError) : Option String :=
  if error.expected.isEmpty then none
  else some ("expected " ++ ", ".intercalate error.expected)

def message (error : SyntaxError) : String :=
  "\n".intercalate <| List.reduceOption [error.subject.map ("invalid " ++ ·),
    error.expectedLine, error.objection.map Objection.message]

end SyntaxError

end PooledPackets.Document
