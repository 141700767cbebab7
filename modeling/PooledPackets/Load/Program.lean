import PooledPackets.Document.Excerpt
import PooledPackets.Load.Arguments
import PooledPackets.Load.Folder
import PooledPackets.Load.Report

/-!
# The load program

What the program writes from its start to its end, apart from what it measures.
It looks at the clock ten times a second: when it finds that the workers are
warm it starts to measure, and when it finds that the time is over it stops.
-/

namespace PooledPackets.Load

/-- Why a run does not begin. -/
inductive LoadError where
  /-- The file with the settings could not be read. -/
  | unreadable (error : FileError)
  /-- The file has a text that holds no settings. -/
  | invalid (text : String) (error : SettingsError)

namespace LoadError

/-- The lines that report what is wrong with settings in a text. -/
def settingsMessage (text : String) : SettingsError → String
  | .notToml error => Document.reportText text (some error.span) error.message
  | .undecodable error =>
      Document.reportText text error.span (error.content.message .toml)
  | .rejected objection => objection.message
  | .invalidPool error => error.message
  | .overflow => "the sizes of a pool are too large"

def message : LoadError → String
  | unreadable error => error.message
  | invalid text error => settingsMessage text error

/-- The text for a caller whose run does not begin. -/
def text (error : LoadError) : String :=
  "Failed to load config: " ++ error.message ++ "\n"

end LoadError

/-- A run that can begin: its settings, its pools and its log. -/
structure Run where
  settings : Settings
  pools : Pools
  filter : LogFilter

/-- What a caller gets. -/
inductive Plan where
  | refuse (error : UsageError)
  | help
  | give (error : LoadError)
  | go (run : Run)

/-- The time between two looks at the clock. -/
def tick : Duration := ⟨100000000⟩

namespace Schedule

/-- The number of workers that the arguments ask for. -/
def withThreads (schedule : Schedule) (threads : Option Nat) : Schedule :=
  match threads with
  | none => schedule
  | some 0 => schedule
  | some threads => { schedule with threads }

/-- When the program finds that the workers are warm. -/
def firstLook (schedule : Schedule) : Duration :=
  let warmup := schedule.warmup.nanoseconds
  ⟨tick.nanoseconds * max 1 (Layout.portions warmup tick.nanoseconds)⟩

/-- When the time of a run is over. -/
def finish (schedule : Schedule) : Duration :=
  ⟨schedule.warmup.nanoseconds + schedule.duration.nanoseconds⟩

/-- Whether the program comes to measure anything. The time may be over at its
first look at the clock. -/
def isMeasured (schedule : Schedule) : Bool :=
  schedule.firstLook.nanoseconds < schedule.finish.nanoseconds

end Schedule

namespace Run

/-- The run with the settings in a text. The arguments and the environment may
ask for other numbers of workers and other log lines. -/
def ofText (arguments : Arguments) (wish : Option String) (text : String) :
    Except SettingsError Run := do
  let settings ← Settings.read text
  let pools ← settings.makePools
  let schedule := settings.schedule.withThreads arguments.threads
  pure {
    settings := { settings with schedule }
    pools := pools
    filter := settings.logging.filter wish }

def warmingUp (run : Run) : LogEvent where
  message := "warming up"
  fields := [("threads", .number run.settings.schedule.threads),
    ("warmup", .text run.settings.schedule.warmup.text)]

def running (run : Run) : LogEvent where
  message := "running"
  fields := [("duration", .text run.settings.schedule.duration.text)]

/-- The log line for an event at a time of day. -/
def logLine (run : Run) (microseconds : Nat) (event : LogEvent) : String :=
  run.settings.logging.line run.filter microseconds event

/-- What is written to the error output before the workers run. -/
def opening (run : Run) (microseconds : Nat) : String :=
  run.filter.complaints ++ Report.configuration run.settings run.pools ++
    run.logLine microseconds run.warmingUp

/-- What is written to the error output when measuring starts. -/
def measuring (run : Run) (microseconds : Nat) : String :=
  run.logLine microseconds run.running

/-- What is written to the error output at the end. -/
def closing (run : Run) (measured : Measurements) : String :=
  Report.summary run.settings measured

end Run

namespace Plan

/-- What becomes of a call. `file` is the text of the file with a given path,
or the reason why there is none. -/
def ofCall (arguments : List String) (file : String → Except FileError String)
    (wish : Option String) : Plan :=
  match Request.ofArguments arguments with
  | .error error => .refuse error
  | .ok .help => .help
  | .ok (.run arguments) =>
      match file arguments.config with
      | .error error => .give (.unreadable error)
      | .ok text =>
          match Run.ofText arguments wish text with
          | .error error => .give (.invalid text error)
          | .ok run => .go run

end Plan

/-- All that a call writes, and the number that it ends with. -/
structure Transcript where
  status : Nat
  output : String
  errors : String
  deriving DecidableEq, Repr

namespace Transcript

/-- What a call writes if it measures what `measure` says, all at one time of
day. -/
def ofPlan (microseconds : Nat) (measure : Run → Measurements) :
    Plan → Transcript
  | .refuse error => ⟨2, "", error.text⟩
  | .help => ⟨0, helpText, ""⟩
  | .give error => ⟨1, "", error.text⟩
  | .go run =>
      let opening := run.opening microseconds
      let closing := run.closing (measure run)
      if run.settings.schedule.isMeasured then
        ⟨0, Report.headings, opening ++ run.measuring microseconds ++ closing⟩
      else ⟨0, "", opening ++ closing⟩

end Transcript

end PooledPackets.Load
