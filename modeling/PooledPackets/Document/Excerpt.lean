import PooledPackets.Document.Span

/-!
# Excerpts

An error in a document is reported with the line in which a part of the text
begins, and with marks under that part. Lines and columns are counted from one.
-/

namespace PooledPackets.Document

/-- A line of a text and a place in it. -/
structure Excerpt where
  /-- The number of lines ahead of it. -/
  line : Nat
  content : List Char
  /-- The number of characters ahead of the place. -/
  column : Nat
  deriving DecidableEq, Repr

namespace Excerpt

/-- The number of characters that take so many bytes, unless the last of them
takes more. -/
def charsIn : (bytes : Nat) → List Char → Option Nat
  | 0, _ => some 0
  | _ + 1, [] => none
  | bytes, char :: rest =>
      if char.utf8Size ≤ bytes then
        (· + 1) <$> charsIn (bytes - char.utf8Size) rest
      else none

/-- The column of a byte in a line. It counts characters up to the end of one
of them; a byte inside of a character counts bytes. -/
def columnAt (content : List Char) (offset : Nat) : Nat :=
  match charsIn (offset + 1) (content ++ ['\n']) with
  | some count => count - 1
  | none => offset

/-- The line with a byte; `number` lines and their ends stand ahead of the
given ones. -/
def find (number offset : Nat) : List (List Char) → Excerpt
  | [] => ⟨number, [], offset⟩
  | [content] => ⟨number, content, columnAt content offset⟩
  | content :: rest =>
      let size := (String.ofList content).utf8ByteSize
      if offset ≤ size then ⟨number, content, columnAt content offset⟩
      else find (number + 1) (offset - size - 1) rest

/-- The line with a position. The end of a text counts as the column after its
last byte. -/
def ofPosition (text : String) (position : Nat) : Excerpt :=
  let last := min position (text.utf8ByteSize - 1)
  let excerpt := find 0 last (text.toList.splitOn '\n')
  { excerpt with column := excerpt.column + (position - last) }

end Excerpt

def blankText (count : Nat) : String :=
  String.ofList (List.replicate count ' ')

/-- The lines that show where a part of a text begins. The marks do not go
beyond the size of the line. -/
def Span.excerpt (text : String) (span : Span) : String :=
  let excerpt := Excerpt.ofPosition text span.start
  let number := toString (excerpt.line + 1)
  let content := String.ofList excerpt.content
  let gutter := blankText (number.length + 1) ++ "|"
  let marks := max 1 (min (span.stop - span.start) content.utf8ByteSize)
  "TOML parse error at line " ++ number ++ ", column " ++
    toString (excerpt.column + 1) ++ "\n" ++ gutter ++ "\n" ++
    number ++ " | " ++ content ++ "\n" ++ gutter ++
    blankText (excerpt.column + 1) ++
    String.ofList (List.replicate marks '^') ++ "\n"

/-- The report of an error, if possible with the part of the text that is to
blame. -/
def reportText (text : String) (span : Option Span) (message : String) :
    String :=
  (span.map (Span.excerpt text)).getD "" ++ message ++ "\n"

end PooledPackets.Document
