import PooledPackets.Document.SyntaxError
import PooledPackets.Document.Value
import PooledPackets.Duration.Reader
import PooledPackets.Size

/-!
# Decoding documents

A decoder turns a value of a document into a value of some type or says what
it stumbled over, and in which part of the text. Records are decoded field by
field in the order of the document; a field that is missing is noticed after
all others were decoded.
-/

namespace PooledPackets.Document

/-- Why a document could not be decoded. -/
inductive DecodeError where
  /-- A value of a kind that was not expected. -/
  | wrongType (found : Value) (expected : String)
  /-- An integer beyond the range of its type. -/
  | outOfRange (value : Int) (expected : String)
  /-- A value that cannot stand for one of some variants. -/
  | noVariant (found : Value)
  /-- A record of the wrong size stands for one of some variants. -/
  | notSingle (count : Nat)
  | unknownField (name : String) (known : List String)
  | unknownVariant (name : String) (known : List String)
  /-- A variant without content came with some. -/
  | variantContent (found : Value)
  | missingField (name : String)
  /-- A list that stands for a record ends too early. -/
  | listTooShort (length : Nat) (title : String) (fields : Nat)
  /-- A list that stands for a record goes on too long. -/
  | listTooLong (length : Nat)
  /-- A size that is neither a number nor a text. -/
  | noSize
  | badSize (error : SizeError)
  | badDuration (error : DurationError)

namespace DecodeError

open Objection (ticked)

def expectedNames : List String → String
  | [] => "nothing"
  | [name] => ticked name
  | [first, second] => ticked first ++ " or " ++ ticked second
  | names => "one of " ++ ", ".intercalate (names.map ticked)

def noVariantMessage (found : Value) : Dialect → String
  | .json =>
      "invalid type: " ++ found.described .json ++ ", expected string or map"
  | .toml => "wanted string or table"

def notSingleMessage (count : Nat) : Dialect → String
  | .json => "invalid value: map, expected map with a single key"
  | .toml =>
      if count = 0 then "wanted exactly 1 element, found 0 elements"
      else "wanted exactly 1 element, more than 1 element"

def variantContentMessage (found : Value) (dialect : Dialect) : String :=
  match dialect, found with
  | .json, _ => "invalid type: " ++ found.described dialect ++ ", expected unit"
  | .toml, .record _ => "expected empty table"
  | .toml, .list _ => "expected empty table"
  | .toml, .tables _ => "expected empty array"
  | .toml, _ => "expected table, found " ++ found.typeName

def elementCount (count : Nat) : String :=
  if count = 1 then "1 element" else toString count ++ " elements"

def message (dialect : Dialect) : DecodeError → String
  | wrongType found expected =>
      "invalid type: " ++ found.described dialect ++ ", expected " ++ expected
  | outOfRange value expected =>
      "invalid value: integer " ++ ticked (toString value) ++ ", expected " ++
        expected
  | noVariant found => noVariantMessage found dialect
  | notSingle count => notSingleMessage count dialect
  | unknownField name known =>
      "unknown field " ++ ticked name ++ ", expected " ++ expectedNames known
  | unknownVariant name known =>
      "unknown variant " ++ ticked name ++ ", expected " ++ expectedNames known
  | variantContent found => variantContentMessage found dialect
  | missingField name => "missing field " ++ ticked name
  | listTooShort length title fields =>
      "invalid length " ++ toString length ++ ", expected " ++ title ++
        " with " ++ elementCount fields
  | listTooLong length =>
      "invalid length " ++ toString length ++
        ", expected fewer elements in array"
  | noSize => "data did not match any variant of untagged enum SizeValue"
  | badSize error => error.message
  | badDuration error => error.message

end DecodeError

/-- A result, or an error with the part of the text that is to blame. -/
abbrev Decoded (α : Type) : Type :=
  Except (Located DecodeError) α

namespace Decoded

variable {α : Type}

/-- An error with the part of the text that is to blame, if it is known. -/
def failed (error : DecodeError) (span : Option Span) : Decoded α :=
  .error ⟨error, span⟩

/-- Blames a part of the text for an error unless another one is blamed. -/
def blaming (span : Option Span) (result : Decoded α) : Decoded α :=
  result.mapError fun error => error.orAt span

end Decoded

/-- A decoder of values of a type, for documents in either notation. -/
abbrev Decoder (α : Type) : Type :=
  Dialect → Located Value → Decoded α

namespace Decoder

def boolean : Decoder Bool := fun _ value =>
  match value.content with
  | .boolean value => .ok value
  | found => .failed (.wrongType found "a boolean") value.span

def string : Decoder String := fun _ value =>
  match value.content with
  | .string text => .ok text
  | found => .failed (.wrongType found "a string") value.span

/-- A natural number below a limit; the name is that of the type of all such
numbers. -/
def natural (name : String) (limit : Nat) : Decoder Nat := fun _ value =>
  match value.content with
  | .integer number =>
      if 0 ≤ number ∧ number < limit then .ok number.toNat
      else .failed (.outOfRange number name) value.span
  | found => .failed (.wrongType found name) value.span

def byte : Decoder Nat := natural "u8" (Nat.pow 2 8)

def word32 : Decoder Nat := natural "u32" (Nat.pow 2 32)

def word : Decoder Nat := natural "usize" Config.wordSize

/-- A size: a number of bytes or a text with a unit. An error is blamed on
what the size is a part of. -/
def size : Decoder Nat := fun _ value =>
  match value.content with
  | .integer number =>
      if 0 ≤ number ∧ number < Config.wordSize then .ok number.toNat
      else .failed .noSize none
  | .string text =>
      (Size.read text.toList).mapError fun error => .nowhere (.badSize error)
  | _ => .failed .noSize none

/-- A span of time as a text with units. An error in the text is blamed on
what the span is a part of. -/
def duration : Decoder Duration := fun dialect value => do
  let text ← string dialect value
  (Duration.read text).mapError fun error => .nowhere (.badDuration error)

/-- A value that may be missing, which one of the notations can say. -/
def optional {α : Type} (decoder : Decoder α) : Decoder (Option α) :=
  fun dialect value =>
    match dialect, value.content with
    | .json, .null => .ok none
    | _, _ => (some <$> decoder dialect value : Decoded _).blaming value.span

def variantNamed {α : Type} (variants : List (String × α))
    (name : Located String) : Decoded α :=
  match variants.lookup name.content with
  | some variant => .ok variant
  | none =>
      .failed (.unknownVariant name.content (variants.map Prod.fst)) name.span

/-- Whether a value may follow the name of a variant that has no content. -/
def isNoContent : Dialect → Value → Bool
  | .json, .null => true
  | .toml, .record [] => true
  | .toml, .list [] => true
  | .toml, .tables [] => true
  | _, _ => false

/-- One of some variants by name. The name is a text, or the only name of a
record that holds nothing else. -/
def variant {α : Type} (variants : List (String × α)) : Decoder α :=
  fun dialect value => Decoded.blaming value.span <|
    match value.content with
    | .string name => variantNamed variants (.nowhere name)
    | .record [(name, content)] => do
        let variant ← variantNamed variants name
        if isNoContent dialect content.content then .ok variant
        else .failed (.variantContent content.content) content.span
    | .record fields => .failed (.notSingle fields.length) none
    | found => .failed (.noVariant found) none

end Decoder

/-- A field of a record of some type. -/
structure Field (α : Type) where
  name : String
  /-- A record without the field is refused. -/
  required : Bool
  /-- Decodes the value of the field and puts it into the record. -/
  fill : Dialect → Located Value → α → Decoded α

namespace Field

def of {α β : Type} (name : String) (required : Bool) (decoder : Decoder β)
    (put : α → β → α) : Field α where
  name := name
  required := required
  fill := fun dialect value record => put record <$> decoder dialect value

end Field

/-- How records of some type are decoded. -/
structure RecordShape (α : Type) where
  /-- What an error calls such a record. -/
  title : String
  fields : List (Field α)
  /-- Fields of other names are refused. -/
  closed : Bool
  /-- The record before any field was filled. -/
  blank : α

namespace RecordShape

variable {α : Type}

def field? (shape : RecordShape α) (name : String) : Option (Field α) :=
  shape.fields.find? (fun field => field.name == name)

/-- Fills one field. An error is blamed on its value or else on its name. -/
def fillNamed (shape : RecordShape α) (dialect : Dialect) (record : α)
    (entry : Located String × Located Value) : Decoded α :=
  let (name, value) := entry
  match shape.field? name.content with
  | some field =>
      (field.fill dialect value record).blaming (value.span <|> name.span)
  | none =>
      if shape.closed then
        .failed (.unknownField name.content (shape.fields.map Field.name))
          name.span
      else .ok record

def ofEntries (shape : RecordShape α) (dialect : Dialect)
    (entries : List (Located String × Located Value)) : Decoded α := do
  let record ← entries.foldlM (shape.fillNamed dialect) shape.blank
  let isMissing (field : Field α) : Bool :=
    field.required &&
      !entries.any (fun entry => entry.1.content == field.name)
  match shape.fields.find? isMissing with
  | some field => .failed (.missingField field.name) none
  | none => .ok record

/-- Fills the fields in their order with the values of a list. `position` is
the number of the first of them. -/
def fillInOrder (shape : RecordShape α) (dialect : Dialect) (position : Nat)
    (record : α) : List (Field α) → List (Located Value) → Decoded α
  | [], _ => .ok record
  | field :: fields, value :: values => do
      let record ← field.fill dialect value record
      fillInOrder shape dialect (position + 1) record fields values
  | field :: fields, [] =>
      if field.required then
        .failed (.listTooShort position shape.title shape.fields.length) none
      else fillInOrder shape dialect (position + 1) record fields []

def ofList (shape : RecordShape α) (dialect : Dialect)
    (values : List (Located Value)) : Decoded α := do
  let record ← shape.fillInOrder dialect 0 shape.blank shape.fields values
  if dialect = .json ∧ shape.fields.length < values.length then
    .failed (.listTooLong values.length) none
  else .ok record

def decoder (shape : RecordShape α) : Decoder α := fun dialect value =>
  Decoded.blaming value.span <|
    match value.content with
    | .record entries => shape.ofEntries dialect entries
    | .list values => shape.ofList dialect values
    | .tables values => shape.ofList dialect values
    | .moment text =>
        shape.ofEntries dialect
          [(.nowhere Value.momentField, .nowhere (.string text))]
    | found => .failed (.wrongType found shape.title) none

end RecordShape

end PooledPackets.Document
