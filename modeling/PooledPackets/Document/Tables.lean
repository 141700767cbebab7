import PooledPackets.Document.SyntaxError
import PooledPackets.Document.Value

/-!
# Tables of a document

A TOML document builds its tables bit by bit: a header opens a table, an entry
puts a value under a path of names. A table can be opened once; names ahead of
the last one in a path stand for tables that come into being when they are
first used. What may be added to such a table later depends on how it came
into being.
-/

namespace PooledPackets.Document

abbrev Name := Located String

/-- A name as it is written in a document: with quotation marks if it needs
them, and double ones if these will do. -/
def writtenName (name : String) : String :=
  let isBare (char : Char) : Bool :=
    char.isAlphanum || char == '-' || char == '_'
  let isControl (char : Char) : Bool :=
    (char.toNat < 0x20 && char != '\t') || char.toNat == 0x7F
  let escaped (char : Char) : List Char :=
    match char with
    | '\x08' => ['\\', 'b']
    | '\t' => ['\\', 't']
    | '\n' => ['\\', 'n']
    | '\x0c' => ['\\', 'f']
    | '\r' => ['\\', 'r']
    | '"' => ['\\', '"']
    | '\\' => ['\\', '\\']
    | char =>
        if isControl char then
          let digits := (Nat.toDigits 16 char.toNat).map Char.toUpper
          ['\\', 'u'] ++ List.replicate (4 - digits.length) '0' ++ digits
        else [char]
  let chars := name.toList
  let needsEscape := chars.any fun char => char == '"' || char == '\\'
  if !chars.isEmpty && chars.all isBare then name
  else if needsEscape && !chars.any isControl && !chars.contains '\'' then
    "'" ++ name ++ "'"
  else "\"" ++ String.ofList (chars.flatMap escaped) ++ "\""

/-- How a table came into being. -/
inductive Origin where
  /-- A header opened it. -/
  | header
  /-- It stands ahead of the last name in a header. -/
  | implied
  /-- It stands ahead of the last name in the path of an entry. -/
  | dotted
  deriving DecidableEq, Repr

/-- What stands under a name while a document is read. A table with a header
reaches from its header to its last entry. -/
inductive Node where
  | value (value : Located Value)
  | table (origin : Origin) (span : Option Span)
    (entries : List (Name × Node))
  /-- Tables that were opened under one name, in their order. -/
  | tables (items : List (Option Span × List (Name × Node)))
  deriving Inhabited

abbrev Entries := List (Name × Node)

/-- A table while a document is read. -/
structure DraftTable where
  origin : Origin
  span : Option Span
  entries : Entries

namespace Entries

def node? (entries : Entries) (name : String) : Option Node :=
  (entries.find? fun entry => entry.1.content == name).map Prod.snd

/-- Puts a node under a name; a new name comes last. -/
def put (entries : Entries) (name : Name) (node : Node) : Entries :=
  match entries with
  | [] => [(name, node)]
  | (other, old) :: rest =>
      if other.content = name.content then (other, node) :: rest
      else (other, old) :: put rest name node

def without (entries : Entries) (name : String) : Entries :=
  entries.filter (fun entry => entry.1.content != name)

end Entries

/-- A change of a table, unless there is an objection to it. -/
abbrev Change := DraftTable → Except Objection DraftTable

namespace Change

/-- Changes the table at a path. A missing table on the way comes into being
with the given origin. The last one of several tables under a name is meant. A
path of an entry must not lead through a table that has a header, and no path
leads through a value; `blocked` tells the objection from the names up to the
value. `trail` are the names that were followed already. -/
def below (added : Origin) (blocked : List String → String → Value → Objection)
    (change : Change) (trail : List String) : List Name → Change
  | [], table => change table
  | name :: path, table => do
      let set (node : Node) : DraftTable :=
        { table with entries := table.entries.put name node }
      let inside := below added blocked change (trail ++ [name.content]) path
      match table.entries.node? name.content with
      | none =>
          let inner ← inside ⟨added, none, []⟩
          pure (set (.table inner.origin inner.span inner.entries))
      | some (.value value) =>
          throw (blocked trail name.content value.content)
      | some (.table origin span entries) =>
          if added = .dotted ∧ origin = .header then
            throw (.repeatedName name.content none)
          else
            let inner ← inside ⟨origin, span, entries⟩
            pure (set (.table inner.origin inner.span inner.entries))
      | some (.tables items) =>
          let (span, entries) := items.getLast?.getD (none, [])
          let inner ← inside ⟨.header, span, entries⟩
          pure (set (.tables (items.dropLast ++ [(inner.span, inner.entries)])))

/-- Objects to a path that leads through a value. -/
def notTable (trail : List String) (name : String) (value : Value) :
    Objection :=
  .notTable (trail ++ [name]) value.typeName

/-- Objects to a path within a line that leads through a value. A table within
a line is complete where it ends, so the path gives its name again. -/
def completed (trail : List String) (name : String) (value : Value) :
    Objection :=
  match value with
  | .record _ => .repeatedName name none
  | value => notTable trail name value

/-- Changes the table at a path of names. -/
def along (change : Change) (added : Origin) (path : List Name) : Change :=
  below added notTable change [] path

/-- Puts a value under a new name in a table that was reached by a path of an
entry. Where the path has names, the table must have come into being through
such a path. `home` is the path of the table that the path starts in. -/
def setValue (home : Option (List String)) (isDirect : Bool) (name : Name)
    (value : Located Value) : Change := fun table =>
  if !isDirect && table.origin != .dotted then
    throw (.repeatedName name.content none)
  else if (table.entries.node? name.content).isSome then
    throw (.repeatedName name.content home)
  else
    pure { table with entries := table.entries.put name (.value value) }

/-- Puts a value under a path of names. -/
def assign (home : List String) (path : List Name) (name : Name)
    (value : Located Value) : Change :=
  (setValue (some home) path.isEmpty name value).along .dotted path

/-- Puts a value under a path of names within a line. -/
def assignWithin (path : List Name) (name : Name) (value : Located Value) :
    Change :=
  below .dotted completed (setValue none path.isEmpty name value) [] path

/-- Extends a table up to the end of its newest entry. -/
def extend (last : Option Span) : Change := fun table =>
  let span := match table.span, last with
    | some span, some last => some (span.through last)
    | span, _ => span
  pure { table with span }

/-- Opens a table under a name. It may have come into being ahead of a longer
header; then it moves behind the other names. -/
def openTable (home : List String) (name : Name) (span : Option Span) :
    Change := fun table =>
  let moved (entries : Entries) : DraftTable :=
    { table with
      entries := (table.entries.without name.content).put name
        (.table .header span entries) }
  match table.entries.node? name.content with
  | none => pure (moved [])
  | some (.table .implied _ entries) => pure (moved entries)
  | some _ => throw (.repeatedName (writtenName name.content) (some home))

/-- Opens one more table under a name. -/
def openElement (home : List String) (name : Name) (span : Option Span) :
    Change := fun table =>
  let set (items : List (Option Span × Entries)) : DraftTable :=
    { table with entries := table.entries.put name (.tables items) }
  match table.entries.node? name.content with
  | none => pure (set [(span, [])])
  | some (.tables items) => pure (set (items ++ [(span, [])]))
  | some _ => throw (.repeatedName (writtenName name.content) (some home))

end Change

/-! ## Statements -/

/-- What one line of a document says. The last name of a path is kept apart. A
header has a part of the text of its own. -/
inductive Statement where
  | assign (path : List Name) (name : Name) (value : Located Value)
  | table (path : List Name) (name : Name) (span : Option Span)
  | element (path : List Name) (name : Name) (span : Option Span)

/-- A document while it is read: its outermost table and the path of the table
that was opened last. -/
structure Draft where
  root : DraftTable
  opened : List Name

namespace Draft

def empty : Draft where
  root := ⟨.header, some ⟨0, 0⟩, []⟩
  opened := []

/-- Changes the table at a path that starts in the outermost one. -/
def change (draft : Draft) (path : List Name) (change : Change) :
    Except Objection Draft := do
  pure { draft with root := ← change.along .implied path draft.root }

/-- Adds what a line says, unless it contradicts what was said before. -/
def add (draft : Draft) : Statement → Except Objection Draft
  | .assign path name value => do
      let home := draft.opened.map Located.content
      let draft ← draft.change draft.opened (.extend value.span)
      draft.change draft.opened (.assign home path name value)
  | .table path name span => do
      let home := path.map Located.content
      let draft ← draft.change path (.openTable home name span)
      pure { draft with opened := path ++ [name] }
  | .element path name span => do
      let home := path.map Located.content
      let draft ← draft.change path (.openElement home name span)
      pure { draft with opened := path ++ [name] }

end Draft

/-! ## The finished document -/

/-- The part of the text from the first to the last of some tables. -/
def itemsSpan (items : List (Option Span × Entries)) : Option Span := do
  let first ← (← items.head?).1
  let last ← (← items.getLast?).1
  pure (first.through last)

mutual

/-- The value that a node stands for. -/
def Node.toValue : Node → Located Value
  | .value value => value
  | .table _ span entries => ⟨.record (entriesToFields entries), span⟩
  | .tables items => ⟨.tables (itemsToValues items), itemsSpan items⟩

/-- The values under the names of a table. -/
def entriesToFields : List (Name × Node) → List (Name × Located Value)
  | [] => []
  | (name, node) :: rest => (name, node.toValue) :: entriesToFields rest

/-- The values of tables under one name. -/
def itemsToValues :
    List (Option Span × List (Name × Node)) → List (Located Value)
  | [] => []
  | (span, entries) :: rest =>
      ⟨.record (entriesToFields entries), span⟩ :: itemsToValues rest

end

/-- The record of values that were put under paths of names, unless they
contradict each other. -/
def recordOf (assignments : List (List Name × Name × Located Value)) :
    Except Objection Value := do
  let table ← assignments.foldlM
    (fun table (path, name, value) =>
      Change.assignWithin path name value table)
    ⟨.header, none, []⟩
  pure (.record (entriesToFields table.entries))

/-- The value of a document that was read to its end. -/
def Draft.toValue (draft : Draft) : Located Value :=
  ⟨.record (entriesToFields draft.root.entries), draft.root.span⟩

end PooledPackets.Document
