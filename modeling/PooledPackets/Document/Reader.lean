import PooledPackets.Document.SyntaxError

/-!
# Reading text

A reader takes something from the front of a text or fails. Where one reader
fails another one can be tried from the same place, unless what was read so
far leaves no other choice: then the failure is final.
-/

namespace PooledPackets.Document

/-- How far a text was read. -/
structure Cursor where
  /-- The bytes that were read. -/
  position : Nat
  /-- The bytes of the whole text. -/
  limit : Nat
  /-- What is still to be read. -/
  rest : List Char
  deriving Inhabited

namespace Cursor

def ofText (text : String) : Cursor :=
  ⟨0, text.utf8ByteSize, text.toList⟩

def byteCount (chars : List Char) : Nat :=
  chars.foldl (fun count char => count + char.utf8Size) 0

/-- The place behind some characters, given what follows them. -/
def behind (cursor : Cursor) (chars rest : List Char) : Cursor :=
  { cursor with position := cursor.position + byteCount chars, rest := rest }

/-- The next character. -/
def span (cursor : Cursor) : Span :=
  ⟨cursor.position, cursor.position + byteCount (cursor.rest.take 1)⟩

end Cursor

/-- Why a reader failed. -/
structure Failure where
  error : SyntaxError
  /-- No other reader can be tried instead. -/
  isFinal : Bool

/-- A reader of values of some type. -/
def Reader (α : Type) : Type :=
  Cursor → Except Failure (α × Cursor)

namespace Reader

variable {α β : Type}

instance : Monad Reader where
  pure value := fun cursor => .ok (value, cursor)
  bind reader next := fun cursor =>
    match reader cursor with
    | .error failure => .error failure
    | .ok (value, cursor) => next value cursor

/-- The first reader where it succeeds, else the second one. -/
def orElse (first : Reader α) (second : Unit → Reader α) : Reader α :=
  fun cursor =>
    match first cursor with
    | .error failure =>
        if failure.isFinal then .error failure else second () cursor
    | .ok result => .ok result

instance : OrElse (Reader α) := ⟨orElse⟩

/-! ## Failures -/

/-- A failure at a place. -/
def failureAt (cursor : Cursor) (objection : Option Objection)
    (isFinal : Bool) : Failure :=
  ⟨⟨cursor.span, none, [], objection⟩, isFinal⟩

/-- Changes how a reader fails. -/
def onFailure (change : Failure → Failure) (reader : Reader α) : Reader α :=
  fun cursor => (reader cursor).mapError change

def fail : Reader α := fun cursor =>
  .error (failureAt cursor none false)

/-- Fails for good, with an objection. -/
def refuse (objection : Objection) : Reader α := fun cursor =>
  .error (failureAt cursor (some objection) true)

/-- A reader that must not fail any more. -/
def must (reader : Reader α) : Reader α :=
  reader.onFailure fun failure => { failure with isFinal := true }

/-- Says what a reader reads, for failures that do not know it better. -/
def named (subject : String) (reader : Reader α) : Reader α :=
  reader.onFailure fun failure =>
    let subject := failure.error.subject <|> some subject
    { failure with error := { failure.error with subject } }

/-- Says what a reader expects, besides what is known already. -/
def expecting (what : String) (reader : Reader α) : Reader α :=
  reader.onFailure fun failure =>
    let expected := failure.error.expected ++ [what]
    { failure with error := { failure.error with expected } }

/-- Checks what a reader read; an objection is raised at its start. -/
def checkedWith (isFinal : Bool) (reader : Reader α)
    (check : α → Except (Option Objection) β) : Reader β := fun cursor =>
  match reader cursor with
  | .error failure => .error failure
  | .ok (value, next) =>
      match check value with
      | .error objection => .error (failureAt cursor objection isFinal)
      | .ok result => .ok (result, next)

/-- Checks what a reader read. Where there is an objection, another reader can
be tried. -/
def checked (reader : Reader α) (check : α → Except (Option Objection) β) :
    Reader β :=
  reader.checkedWith false check

/-- Checks what a reader read. An objection is final. -/
def settled (reader : Reader α) (check : α → Except (Option Objection) β) :
    Reader β :=
  reader.checkedWith true check

/-! ## Places -/

def place : Reader Cursor := fun cursor =>
  .ok (cursor, cursor)

def goTo (cursor : Cursor) : Reader Unit := fun _ =>
  .ok ((), cursor)

/-- Reads without taking anything. A failure counts from the start. -/
def peek (reader : Reader α) : Reader α := fun cursor =>
  match reader cursor with
  | .error failure =>
      .error { failure with error := { failure.error with span := cursor.span } }
  | .ok (value, _) => .ok (value, cursor)

/-- A value with the part of the text that it was read from. -/
def located (reader : Reader α) : Reader (Located α) := do
  let before ← place
  let content ← reader
  let after ← place
  pure ⟨content, some ⟨before.position, after.position⟩⟩

/-! ## Characters -/

/-- The longest stretch of characters of a class; it may be empty. -/
def stretch (belongs : Char → Bool) : Reader (List Char) := fun cursor =>
  let chars := cursor.rest.takeWhile belongs
  .ok (chars, cursor.behind chars (cursor.rest.dropWhile belongs))

/-- A stretch that is not empty. -/
def stretch1 (belongs : Char → Bool) : Reader (List Char) := fun cursor =>
  match cursor.rest with
  | [] => fail cursor
  | char :: _ =>
      if belongs char then stretch belongs cursor else fail cursor

def oneOf (belongs : Char → Bool) : Reader Char := fun cursor =>
  match cursor.rest with
  | [] => fail cursor
  | char :: rest =>
      if belongs char then .ok (char, cursor.behind [char] rest)
      else fail cursor

def word (expected : String) : Reader Unit := fun cursor =>
  let chars := expected.toList
  if chars.isPrefixOf cursor.rest then
    .ok ((), cursor.behind chars (cursor.rest.drop chars.length))
  else fail cursor

/-- So many characters of a class. -/
def exactly (belongs : Char → Bool) (count : Nat) : Reader (List Char) :=
  fun cursor =>
    let chars := cursor.rest.take count
    if chars.length = count ∧ chars.all belongs then
      .ok (chars, cursor.behind chars (cursor.rest.drop count))
    else fail cursor

def atEnd : Reader Unit := fun cursor =>
  match cursor.rest with
  | [] => .ok ((), cursor)
  | _ :: _ => fail cursor

/-! ## Repetition -/

def optional (reader : Reader α) : Reader (Option α) :=
  some <$> reader <|> pure none

/-- Reads on for as long as that is possible, starting from a value and a
place before the end of the text. A reader that takes nothing is not asked
again. -/
def iteratedFrom (limit : Nat) (step : α → Reader α) (value : α)
    (cursor : Cursor) : Except Failure (α × Cursor) :=
  match step value cursor with
  | .error failure =>
      if failure.isFinal then .error failure else .ok (value, cursor)
  | .ok (longer, next) =>
      if cursor.position < next.position ∧ next.position ≤ limit then
        iteratedFrom limit step longer next
      else .ok (value, cursor)
termination_by limit - cursor.position

/-- Reads on for as long as that is possible, starting from a value. -/
def iterated (step : α → Reader α) (value : α) : Reader α := fun cursor =>
  iteratedFrom cursor.limit step value cursor

def repeated (reader : Reader α) : Reader (List α) :=
  List.reverse <$> iterated (fun values => (· :: values) <$> reader) []

def repeated1 (reader : Reader α) : Reader (List α) := do
  let first ← reader
  let others ← repeated reader
  pure (first :: others)

/-- At least one value, with something between any two of them. -/
def separated (reader : Reader α) (separator : Reader β) :
    Reader (List α) := do
  let first ← reader
  let others ← repeated (do let _ ← separator; reader)
  pure (first :: others)

end Reader

end PooledPackets.Document
