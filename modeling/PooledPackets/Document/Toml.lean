import PooledPackets.Document.Scalar
import PooledPackets.Document.Tables

/-!
# TOML documents

A document is read line by line. A line is blank, assigns a value to a key or
opens a table; what it says is added to the document before the next one is
read.
-/

namespace PooledPackets.Document

open Reader Token

/-! ## Keys -/

/-- Whether a character may stand in a name without quotation marks. -/
def isNameChar (char : Char) : Bool :=
  char.isAlphanum || char == '-' || char == '_'

def nameReader : Reader Name :=
  located <| String.ofList <$>
    (basicString <|> literalString <|> stretch1 isNameChar)

/-- The largest number of names in a key. -/
def maxNames : Nat := 79

/-- The names of a key with the last one apart. -/
def splitNames (names : List Name) :
    Except (Option Objection) (List Name × Name) :=
  match names.getLast? with
  | none => .error none
  | some name =>
      if maxNames < names.length then .error (some .tooDeep)
      else .ok (names.dropLast, name)

/-- A key: names with points between them. The last name is kept apart. -/
def keyReader : Reader (List Name × Name) :=
  (named "key"
    (separated (blanks *> nameReader <* blanks) (word "."))).checked splitNames

/-- A key and its value. After the key nothing else can follow. -/
def pairReader (value : Reader (Located Value)) (rest : Reader Unit) :
    Reader (List Name × Name × Located Value) := do
  let (path, name) ← keyReader
  must do
    expecting (Objection.ticked "=") (expecting (Objection.ticked ".")
      (word "="))
    blanks
    let value ← value
    rest
    pure (path, name, value)

/-! ## Values -/

/-- A list of values. Lines can end between them, and a comma may follow the
last one. -/
def listReader (value : Reader (Located Value)) : Reader Value := do
  word "["
  must do
    let items ← Reader.optional do
      let items ← separated (gap *> value <* gap) (word ",")
      let _ ← Reader.optional (word ",")
      pure items
    gap
    expecting (Objection.ticked "]") (named "array" (word "]"))
    pure (.list (items.getD []))

/-- A table within a line. -/
def recordReader (value : Reader (Located Value)) : Reader Value := do
  word "\x7b"
  must do
    let pairs : Reader (List (List Name × Name × Located Value)) := do
      let pairs ← Reader.optional
        (separated (pairReader value blanks) (word ","))
      blanks
      pure (pairs.getD [])
    let record ← pairs.checked fun pairs => (recordOf pairs).mapError some
    expecting (Objection.ticked "\x7d")
      (named "inline table" (word "\x7d"))
    pure record

/-- A value that holds others down to a given depth. -/
def valueReader : (depth : Nat) → Reader (Located Value)
  | 0 => located do
      match (← place).rest with
      | '[' :: _ => refuse .tooDeep
      | '\x7b' :: _ => refuse .tooDeep
      | _ => Scalar.read
  | depth + 1 => located do
      match (← place).rest with
      | '[' :: _ => listReader (valueReader depth)
      | '\x7b' :: _ => recordReader (valueReader depth)
      | _ => Scalar.read

def maxDepth : Nat := 79

/-! ## Lines -/

/-- The rest of a line behind what it says. -/
def lineTail : Reader Unit :=
  expecting (Objection.ticked "#") (expecting "newline" lineRest)

/-- The key of a header between its marks, with the part of the text that the
header takes. -/
def headerKey (first last : String) :
    Reader (Located (List Name × Name)) := do
  let key ← located do
    word first
    let key ← keyReader
    expecting (Objection.ticked last) (expecting (Objection.ticked ".")
      (word last))
    pure key
  lineTail
  pure key

def headerReader : Reader Statement := do
  let _ ← peek (exactly (fun _ => true) 2)
  match (← place).rest with
  | '[' :: '[' :: _ => do
      let ⟨(path, name), span⟩ ← headerKey "[[" "]]"
      pure (.element path name span)
  | _ => do
      let ⟨(path, name), span⟩ ← headerKey "[" "]"
      pure (.table path name span)

def assignmentReader : Reader Statement := do
  let (path, name, value) ← pairReader (valueReader maxDepth) lineTail
  pure (.assign path name value)

/-- A line that opens a table or assigns a value, and the document with it. An
objection is raised at the start of the line. -/
def statementReader (draft : Draft) (line : Reader Statement) : Reader Draft :=
  must (line.checked fun statement =>
    (draft.add statement).mapError some)

/-- One more line of a document, or the rest of it. -/
def lineReader (draft : Draft) : Reader Draft := do
  let draft ← match (← place).rest with
    | [] => fail
    | '#' :: _ => must do
        comment
        lineEnd
        pure draft
    | '[' :: _ =>
        named "table header" (statementReader draft headerReader)
    | '\n' :: _ => do
        newline
        pure draft
    | '\r' :: _ => do
        newline
        pure draft
    | _ => statementReader draft assignmentReader
  blanks
  pure draft

/-- All lines of a document. The mark of the order of its bytes may stand
ahead of them. -/
def documentReader : Reader Draft := do
  let _ ← Reader.optional (word "\uFEFF")
  blanks
  let draft ← iterated lineReader .empty
  atEnd
  pure draft

/-- The document that a text in TOML stands for. -/
def readToml (text : String) : Except SyntaxError (Located Value) :=
  match documentReader (.ofText text) with
  | .ok (draft, _) => .ok draft.toValue
  | .error failure => .error failure.error

end PooledPackets.Document
