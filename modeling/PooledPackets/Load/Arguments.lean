import PooledPackets.Load.Count

/-!
# Arguments of a load run

A run is called with the path of its settings and, if wanted, with another
number of workers. Arguments are looked at one after the other; the value of an
argument is checked when the next one comes or when there are no more.
-/

namespace PooledPackets.Load

structure Arguments where
  config : String
  threads : Option Nat
  deriving DecidableEq, Repr

/-- What a caller asks for. -/
inductive Request where
  | help
  | run (arguments : Arguments)
  deriving DecidableEq, Repr

/-- Why arguments were refused. -/
inductive UsageError where
  | missingConfig
  | unexpectedArgument (argument : String)
  /-- An argument that should have a value has none. -/
  | missingValue (argument : String)
  /-- An argument that has no value got one. -/
  | unexpectedValue (argument value : String)
  | invalidThreads (value : String) (error : CountError)
  /-- The number of workers was given twice. -/
  | repeatedThreads
  deriving DecidableEq, Repr

namespace UsageError

/-- How the argument with the number of workers is shown. -/
def threadsArgument : String := "--threads <THREADS>"

/-- How the argument with the path is shown. -/
def configArgument : String := "<CONFIG>"

def message : UsageError → String
  | missingConfig => "the following required arguments were not provided:"
  | unexpectedArgument argument => s!"unexpected argument '{argument}' found"
  | missingValue argument =>
      s!"a value is required for '{argument}' but none was supplied"
  | unexpectedValue argument value =>
      s!"unexpected value '{value}' for '{argument}' found; no more were expected"
  | invalidThreads value error =>
      "invalid value '" ++ value ++ "' for '" ++ threadsArgument ++ "': " ++
        error.message
  | repeatedThreads =>
      "the argument '" ++ threadsArgument ++ "' cannot be used multiple times"

/-- How a run is called. -/
def usage : UsageError → String
  | missingConfig =>
      "  " ++ configArgument ++ "\n\nUsage: packet-bench <CONFIG>\n\n"
  | missingValue _ => "\n"
  | invalidThreads .. => "\n"
  | _ => "\nUsage: packet-bench [OPTIONS] <CONFIG>\n\n"

def text (error : UsageError) : String :=
  "error: " ++ error.message ++ "\n" ++ error.usage ++
    "For more information, try '--help'.\n"

end UsageError

def helpText : String :=
  "Fragment/reassemble load driver for packet pools\n\n" ++
  "Usage: packet-bench [OPTIONS] <CONFIG>\n\n" ++
  "Arguments:\n" ++
  "  <CONFIG>  Path to configuration file\n\n" ++
  "Options:\n" ++
  "      --threads <THREADS>  Override the number of worker threads\n" ++
  "  -h, --help               Print help\n"

/-! ## Reading arguments -/

/-- An argument whose value was not checked yet. -/
inductive Pending where
  | nothing
  /-- The number of workers, if it has come already. -/
  | threads (value : Option String)
  | config (value : String)
  deriving DecidableEq, Repr

/-- The arguments while they are looked at. -/
structure ArgumentDraft where
  config : Option String
  threads : Option Nat
  pending : Pending
  /-- No more options are expected. -/
  plain : Bool

namespace ArgumentDraft

/-- Before the first argument. -/
def empty : ArgumentDraft where
  config := none
  threads := none
  pending := .nothing
  plain := false

def setThreads (draft : ArgumentDraft) (value : String) :
    Except UsageError ArgumentDraft :=
  if draft.threads.isSome then .error .repeatedThreads
  else
    match Count.read value with
    | .error error => .error (.invalidThreads value error)
    | .ok count => .ok { draft with threads := some count, pending := .nothing }

/-- Checks the value that was not checked yet. -/
def settle (draft : ArgumentDraft) : Except UsageError ArgumentDraft :=
  match draft.pending with
  | .nothing => .ok draft
  | .threads none => .error (.missingValue UsageError.threadsArgument)
  | .threads (some value) => draft.setThreads value
  | .config value =>
      if value.isEmpty then .error (.missingValue UsageError.configArgument)
      else .ok { draft with config := some value, pending := .nothing }

/-- Whether the path has been given. -/
def hasConfig (draft : ArgumentDraft) : Bool :=
  match draft.pending with
  | .config _ => true
  | _ => draft.config.isSome

def addPlain (draft : ArgumentDraft) (argument : String) :
    Except UsageError ArgumentDraft := do
  if draft.hasConfig then .error (.unexpectedArgument argument)
  else
    let settled ← draft.settle
    pure { settled with pending := .config argument }

/-- Takes an argument that is the value of the one before. -/
def addValue (draft : ArgumentDraft) (argument : String) :
    Except UsageError ArgumentDraft :=
  match draft.pending with
  | .threads none => .ok { draft with pending := .threads (some argument) }
  | _ => draft.addPlain argument

/-- Takes an option with two dashes, with the value after an equals sign if
there is one. Nothing is left of the draft where help is asked for. -/
def addLong (draft : ArgumentDraft) (name : String) (value : Option String) :
    Except UsageError (Option ArgumentDraft) := do
  match name, value with
  | "threads", none =>
      let settled ← draft.settle
      pure (some { settled with pending := .threads none })
  | "threads", some value =>
      let settled ← draft.settle
      some <$> settled.setThreads value
  | "help", none =>
      let _ ← draft.settle
      pure none
  | "help", some value => .error (.unexpectedValue "--help" value)
  | _, _ => .error (.unexpectedArgument ("--" ++ name))

/-- Takes options of one letter. -/
def addShort (draft : ArgumentDraft) : List Char →
    Except UsageError (Option ArgumentDraft)
  | 'h' :: _ => do
      let _ ← draft.settle
      pure none
  | letter :: _ =>
      .error (.unexpectedArgument (String.ofList ['-', letter]))
  | [] => some <$> draft.addValue "-"

def add (draft : ArgumentDraft) (argument : String) :
    Except UsageError (Option ArgumentDraft) :=
  if draft.plain then some <$> draft.addPlain argument
  else
    match argument.toList with
    | ['-', '-'] => .ok (some { draft with plain := true })
    | '-' :: '-' :: option =>
        let name := option.takeWhile (· != '=')
        let value := match option.dropWhile (· != '=') with
          | [] => none
          | _ :: value => some (String.ofList value)
        draft.addLong (String.ofList name) value
    | '-' :: letters => draft.addShort letters
    | _ => some <$> draft.addValue argument

/-- What was asked for, after the last argument. -/
def finish (draft : ArgumentDraft) : Except UsageError Request := do
  let settled ← draft.settle
  match settled.config with
  | none => .error .missingConfig
  | some config => pure (.run ⟨config, settled.threads⟩)

def addAll (draft : ArgumentDraft) : List String → Except UsageError Request
  | [] => draft.finish
  | argument :: rest => do
      match ← draft.add argument with
      | none => pure .help
      | some draft => draft.addAll rest

end ArgumentDraft

/-- What a caller asks for with some arguments. -/
def Request.ofArguments (arguments : List String) :
    Except UsageError Request :=
  ArgumentDraft.empty.addAll arguments

end PooledPackets.Load
