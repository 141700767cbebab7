import PooledPackets.Document.Reader
import PooledPackets.Text.Digits

/-!
# Blanks, comments and quoted text

The smallest parts of a TOML document. Text between double quotes has escapes,
text between single quotes has none; both come on one line between single
marks or on several lines between triple marks.
-/

namespace PooledPackets.Document.Token

open Reader

/-! ## Between the values -/

def isBlank (char : Char) : Bool :=
  char == ' ' || char == '\t'

/-- Whether a character may stand in a text as it is. -/
def isPlain (char : Char) : Bool :=
  char == '\t' || (' ' ≤ char && char.toNat != 0x7F)

def blanks : Reader Unit := do
  let _ ← stretch isBlank

def blanks1 : Reader Unit := do
  let _ ← stretch1 isBlank

def newline : Reader Unit :=
  word "\n" <|> word "\r\n"

/-- The end of the last line or of another one. -/
def lineEnd : Reader Unit :=
  newline <|> atEnd

def comment : Reader Unit := do
  word "#"
  let _ ← stretch isPlain

/-- What may still come on a line, and its end. -/
def lineRest : Reader Unit := do
  blanks
  let _ ← Reader.optional comment
  lineEnd

/-- Blanks, line ends and comments, if there are any. -/
def gap : Reader Unit := do
  let _ ← repeated (blanks1 <|> newline <|> comment)

/-! ## Escapes -/

def isHexDigit (char : Char) : Bool :=
  char.isDigit || ('a' ≤ char && char ≤ 'f') || ('A' ≤ char && char ≤ 'F')

/-- The character of a number in hexadecimal digits. -/
def numberedChar (digits : Nat) : Reader (List Char) :=
  (exactly isHexDigit digits).checked fun chars =>
    let number := Text.valueIn 16 chars
    if number.isValidChar then .ok [Char.ofNat number]
    else .error (some .outOfRange)

/-- The characters with an escape of one letter. -/
def letterEscapes : List (Char × Char) :=
  [('b', '\x08'), ('t', '\t'), ('n', '\n'), ('f', '\x0c'), ('r', '\r'),
    ('"', '"'), ('\\', '\\')]

/-- Fails where a letter has no meaning in an escape. -/
def noEscape : Reader (List Char) :=
  let letters := ["b", "f", "n", "r", "t", "u", "U", "\\", "\""]
  must <| named "escape sequence" <|
    letters.foldl (fun reader letter => reader.expecting (Objection.ticked letter))
      fail

/-- A character written as an escape. A letter without a meaning is blamed on
what follows it, unless it takes several bytes itself. -/
def escape : Reader (List Char) := do
  word "\\"
  let before ← place
  let letter ← oneOf (fun _ => true)
  match letterEscapes.lookup letter with
  | some char => pure [char]
  | none =>
      if letter = 'u' then
        must (named "unicode 4-digit hex code" (numberedChar 4))
      else if letter = 'U' then
        must (named "unicode 8-digit hex code" (numberedChar 8))
      else if letter.utf8Size = 1 then noEscape
      else do
        goTo before
        noEscape

/-- An escaped line end: it is skipped with all blanks and line ends after
it. -/
def escapedNewline : Reader (List Char) := do
  word "\\"
  blanks
  newline
  let _ ← repeated (blanks1 <|> newline)
  pure []

/-! ## Text on one line -/

/-- Characters other than the quotation mark, as they are. -/
def plainBut (mark : Char) : Reader (List Char) :=
  stretch1 fun char => isPlain char && char != mark && char != '\\'

def basicString : Reader (List Char) := do
  word "\""
  let pieces ← repeated (plainBut '"' <|> escape)
  must (named "basic string" (word "\""))
  pure pieces.flatten

def literalString : Reader (List Char) := named "literal string" do
  word "'"
  let chars ← stretch fun char => isPlain char && char != '\''
  must (word "'")
  pure chars

/-! ## Text on several lines -/

/-- One or two quotation marks with something after them, which is not
taken. -/
def marksBefore {α : Type} (mark : Char) (next : Reader α) :
    Reader (List Char) :=
  let marks (count : Nat) : Reader (List Char) := do
    let marks ← exactly (· == mark) count
    let _ ← peek next
    pure marks
  marks 2 <|> marks 1

def keptNewline : Reader (List Char) := do
  newline
  pure ['\n']

/-- The text between triple quotation marks, made of pieces of some kind.
Fewer marks than three belong to it where more of the text or the three marks
at its end come next. -/
def multilineBody (mark : Char) (piece : Reader (List Char)) :
    Reader (List Char) := do
  let first ← repeated piece
  let more ← repeated do
    let marks ← marksBefore mark piece
    let pieces ← repeated1 piece
    pure (marks ++ pieces.flatten)
  let last ← Reader.optional (marksBefore mark (exactly (· == mark) 3))
  pure (first.flatten ++ more.flatten ++ last.getD [])

/-- Text between triple quotation marks, made of pieces of some kind. A line
end right after the first marks is skipped. -/
def multilineString (mark : Char) (piece : Reader (List Char)) :
    Reader (List Char) := do
  let _ ← exactly (· == mark) 3
  let _ ← Reader.optional newline
  let chars ← multilineBody mark piece
  let _ ← must (exactly (· == mark) 3)
  pure chars

def multilineBasicString : Reader (List Char) :=
  named "multiline basic string" <|
    multilineString '"' <|
      plainBut '"' <|> escapedNewline <|> escape <|> keptNewline

def multilineLiteralString : Reader (List Char) :=
  named "multiline literal string" <|
    multilineString '\'' <|
      (stretch1 fun char => isPlain char && char != '\'') <|> keptNewline

def string : Reader String :=
  String.ofList <$> (multilineBasicString <|> basicString <|>
    multilineLiteralString <|> literalString)

end PooledPackets.Document.Token
