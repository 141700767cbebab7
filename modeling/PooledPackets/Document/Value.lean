import PooledPackets.Document.Span
import PooledPackets.Number.Text
import PooledPackets.Text.Quoted

/-!
# Documents

A document is a tree of values. Configurations are decoded from documents; the
notation that a document was written in no longer matters, except for what an
error shows of it. Names and values remember the part of the text that they
were read from.
-/

namespace PooledPackets.Document

inductive Value where
  | null
  | boolean (value : Bool)
  | integer (value : Int)
  | real (value : Binary64)
  | string (text : String)
  /-- A date, a time or both. -/
  | moment (text : String)
  | list (items : List (Located Value))
  /-- Records that each have a header of their own, all under one name. -/
  | tables (items : List (Located Value))
  /-- Named values in the order of the document; no name comes twice. -/
  | record (fields : List (Located String × Located Value))
  deriving Inhabited

/-- The notations for documents. -/
inductive Dialect where
  | json
  | toml
  deriving DecidableEq, Repr, Inhabited

/-- How a dialect shows a number that is not an integer. -/
def Dialect.numberStyle : Dialect → NumberStyle
  | .json => .compact
  | .toml => .plain

namespace Value

/-- The name under which a moment shows the text that it stands for. -/
def momentField : String := "$__toml_private_datetime"

/-- What an error says that it found. -/
def described (dialect : Dialect) : Value → String
  | null => "null"
  | boolean true => "boolean \x60true\x60"
  | boolean false => "boolean \x60false\x60"
  | integer value => "integer \x60" ++ toString value ++ "\x60"
  | real value =>
      "floating point \x60" ++ value.text dialect.numberStyle ++ "\x60"
  | string text => "string " ++ Text.quoted text
  | moment _ => "map"
  | list _ => "sequence"
  | tables _ => "sequence"
  | record _ => "map"

def typeName : Value → String
  | null => "none"
  | boolean _ => "boolean"
  | integer _ => "integer"
  | real _ => "float"
  | string _ => "string"
  | moment _ => "datetime"
  | list _ => "array"
  | tables _ => "array of tables"
  | record _ => "inline table"

end Value

end PooledPackets.Document
