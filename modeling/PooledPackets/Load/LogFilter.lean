import PooledPackets.Load.Count
import PooledPackets.Text.Alphanumeric
import PooledPackets.Text.Blank

/-!
# Log filters

Filter directives decide which lines of a log are written. A directive is a
level, or a target and what the lines of that target must have to be written:
`target[span{field}]=level`, where all parts may be missing.
-/

namespace PooledPackets.Load

/-- How much is logged, from nothing to everything. -/
inductive LogLevel where
  | off
  | error
  | warn
  | info
  | debug
  | trace
  deriving DecidableEq, Repr

namespace LogLevel

def all : List LogLevel :=
  [off, error, warn, info, debug, trace]

def rank : LogLevel → Nat
  | off => 0
  | error => 1
  | warn => 2
  | info => 3
  | debug => 4
  | trace => 5

def name : LogLevel → String
  | off => "off"
  | error => "error"
  | warn => "warn"
  | info => "info"
  | debug => "debug"
  | trace => "trace"

/-- The level that a text names by its word, in either case, or by its
number. -/
def ofText? (text : String) : Option LogLevel :=
  let word := String.ofList (text.toList.map Char.toLower)
  let byNumber := match Count.read text with
    | .ok number => all[number]?
    | .error _ => none
  let byName :=
    if text.isEmpty then some error
    else all.find? fun level => level.name == word
  byNumber <|> byName

end LogLevel

/-! ## Directives -/

/-- A field that a line must have, perhaps with a given value. -/
structure FieldDemand where
  name : String
  hasValue : Bool
  deriving DecidableEq, Repr

namespace FieldDemand

/-- The field that a text demands; a value comes after an equals sign. -/
def ofText (text : String) : FieldDemand where
  name := String.ofList (text.toList.takeWhile (· != '='))
  hasValue := text.toList.contains '='

end FieldDemand

/-- The level for all lines of some kind. -/
structure Directive where
  /-- The lines come from targets whose names begin in this way. -/
  target : Option String := none
  /-- The lines come from within a span of this name. -/
  span : Option String := none
  fields : List FieldDemand := []
  level : LogLevel := .trace
  deriving DecidableEq, Repr

/-- Why a directive is left out. -/
inductive DirectiveError where
  | malformed
  | unknownLevel
  deriving DecidableEq, Repr

def DirectiveError.message : DirectiveError → String
  | malformed => "invalid filter directive"
  | unknownLevel =>
      "error parsing level filter: expected one of \"off\", \"error\", \"warn\", \"info\", \"debug\", \"trace\", or a number 0-5"

namespace Directive

/-- What a directive is read for. Parts begin at positions, in bytes. -/
inductive Stage where
  | start
  | levelOrTarget (start : Nat)
  | span (start : Nat)
  | field (start : Nat)
  | fields
  | target
  | level (start : Nat)
  deriving DecidableEq, Repr

/-- The characters behind so many bytes. -/
def behind : (bytes : Nat) → List Char → List Char
  | 0, chars => chars
  | _ + 1, [] => []
  | bytes, char :: rest => behind (bytes - char.utf8Size) rest

/-- The characters within so many bytes. -/
def within : (bytes : Nat) → List Char → List Char
  | 0, _ => []
  | _ + 1, [] => []
  | bytes, char :: rest => char :: within (bytes - char.utf8Size) rest

/-- The part of a text between two positions. -/
def part (text : List Char) (first last : Nat) : String :=
  String.ofList (within (last - first) (behind first text))

/-- Whether a directive can begin with a character. -/
def isFirst (char : Char) : Bool :=
  char == '-' || char == ':' || char == '_' || Text.isAlphanumeric char

/-- The level at the end of a directive. -/
def levelOf (text : String) : Except DirectiveError LogLevel :=
  if text.isEmpty then .ok .trace
  else
    match LogLevel.ofText? text with
    | some level => .ok level
    | none => .error .unknownLevel

/-- Adds a field that lines must have. -/
def addField (directive : Directive) (text : String) (next : Stage) :
    Except DirectiveError (Directive × Stage) :=
  if text.isEmpty then .error .malformed
  else
    let field := FieldDemand.ofText text
    .ok ({ directive with fields := directive.fields ++ [field] }, next)

/-- Reads on with a character at a position. The parts are taken from the text
with its blanks. -/
def advance (text : List Char) (directive : Directive) (position : Nat)
    (char : Char) : Stage → Except DirectiveError (Directive × Stage)
  | .start =>
      if char = '[' then .ok (directive, .span (position + 1))
      else if isFirst char then .ok (directive, .levelOrTarget position)
      else .error .malformed
  | .levelOrTarget start =>
      let named := { directive with target := some (part text start position) }
      if char = '=' then .ok (named, .level (position + 1))
      else if char = '[' then .ok (named, .span (position + 1))
      else .ok (directive, .levelOrTarget start)
  | .span start =>
      let name := part text start position
      if char = ']' then
        .ok ({ directive with span := some name }, .target)
      else if char = '\x7b' then
        let span := if name.isEmpty then none else some name
        .ok ({ directive with span }, .field (position + 1))
      else .ok (directive, .span start)
  | .field start =>
      if char = '\x7d' then
        directive.addField (part text start position) .fields
      else if char = ',' then
        directive.addField (part text start position) (.field (position + 1))
      else .ok (directive, .field start)
  | .fields =>
      if char = ']' then .ok (directive, .target) else .error .malformed
  | .target =>
      if char = '=' then .ok (directive, .level (position + 1))
      else .error .malformed
  | .level start => .ok (directive, .level start)

/-- The directive when the text is over. A target without a level stands for
all of its lines. -/
def conclude (text : List Char) (directive : Directive) :
    Stage → Except DirectiveError Directive
  | .levelOrTarget start =>
      let name := String.ofList (behind start text)
      if name.isEmpty then .ok { directive with target := none }
      else
        match LogLevel.ofText? name with
        | some level => .ok { directive with level, target := none }
        | none => .ok { directive with target := some name }
  | .level start => do
      let level ← levelOf (String.ofList (behind start text))
      pure { directive with level }
  | .target => .ok directive
  | _ => .error .malformed

/-- Reads characters from a position on. -/
def readFrom (text : List Char) (directive : Directive) (stage : Stage)
    (position : Nat) : List Char → Except DirectiveError Directive
  | [] => directive.conclude text stage
  | char :: rest =>
      match directive.advance text position char stage with
      | .error error => .error error
      | .ok (directive, stage) =>
          readFrom text directive stage (position + char.utf8Size) rest

/-- Reads one directive. Blanks around it are passed over, but they count for
the parts of the directive, which are taken from the text with its blanks. -/
def read (text : String) : Except DirectiveError Directive :=
  readFrom text.toList {} .start 0 (Text.trim text.toList)

/-- Whether a directive depends on what runs when a line is written. -/
def isDynamic (directive : Directive) : Bool :=
  directive.span.isSome || !directive.fields.isEmpty

/-- Whether a directive can be decided from the names in a line. -/
def isStatic (directive : Directive) : Bool :=
  directive.span.isNone && !directive.fields.any FieldDemand.hasValue

def fieldNames (directive : Directive) : List String :=
  directive.fields.map FieldDemand.name

/-- Whether a directive is about the lines of a target with some fields. -/
def concerns (directive : Directive) (target : String) (names : List String) :
    Bool :=
  (directive.target.all fun start =>
    start.toList.isPrefixOf target.toList) &&
  directive.fieldNames.all names.contains

/-- How much a directive says about its target. -/
def targetWeight (directive : Directive) : Nat :=
  (directive.target.map fun target => target.utf8ByteSize + 1).getD 0

/-- Whether of two directives about a line the second one counts. The one with
the longer target does, then the one with more fields, then the one whose
fields come last by name; of equal ones the later one. -/
def yieldsTo (directive other : Directive) : Bool :=
  if directive.targetWeight = other.targetWeight then
    if directive.fields.length = other.fields.length then
      !decide (other.fieldNames < directive.fieldNames)
    else decide (directive.fields.length < other.fields.length)
  else decide (directive.targetWeight < other.targetWeight)

end Directive

/-! ## Filters -/

/-- Decides which lines are written. -/
structure LogFilter where
  directives : List Directive
  /-- The directives that were left out, each with the reason. -/
  ignored : List (String × DirectiveError)

namespace LogFilter

/-- Adds one directive, if it can be read. -/
def add (filter : LogFilter) (text : String) : LogFilter :=
  match Directive.read text with
  | .ok directive =>
      { filter with directives := filter.directives ++ [directive] }
  | .error error => { filter with ignored := filter.ignored ++ [(text, error)] }

/-- Reads directives between commas. Without any, only errors are written. -/
def read (text : String) : LogFilter :=
  let parts := (text.toList.splitOn ',').map String.ofList
  let filter := (parts.filter (!·.isEmpty)).foldl add ⟨[], []⟩
  if filter.directives.isEmpty then
    { filter with directives := [{ level := .error }] }
  else filter

/-- The directive that counts so far, and one more. -/
def closer (best : Option Directive) (directive : Directive) :
    Option Directive :=
  match best with
  | none => some directive
  | some other =>
      if other.yieldsTo directive then some directive else some other

/-- Whether lines of a target and a level with some fields are written. No line
is written within a span. -/
def isOpen (filter : LogFilter) (target : String) (names : List String)
    (level : LogLevel) : Bool :=
  let (dynamic, plain) := filter.directives.partition Directive.isDynamic
  let concerned := (plain ++ dynamic).filter fun directive =>
    directive.isStatic && directive.concerns target names
  match concerned.foldl closer none with
  | none => false
  | some directive => level.rank ≤ directive.level.rank

/-- The lines about directives that were left out. -/
def complaints (filter : LogFilter) : String :=
  String.join <| filter.ignored.map fun (text, error) =>
    "ignoring \x60" ++ text ++ "\x60: " ++ error.message ++ "\n"

end LogFilter

end PooledPackets.Load
