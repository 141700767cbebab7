import PooledPackets.Load.LogFilter
import PooledPackets.Load.Settings
import PooledPackets.Text.Column

/-!
# The log of a load run

A run logs when it starts to warm up and when it starts to measure. A filter
decides whether such lines are written.
-/

namespace PooledPackets.Load

/-! ## The time of day -/

/-- The year, the month and the day, so many days after the start of 1970. -/
def civilDate (days : Nat) : Nat × Nat × Nat :=
  let shifted := days + 719468
  let era := shifted / 146097
  let dayOfEra := shifted % 146097
  let yearOfEra :=
    (dayOfEra - dayOfEra / 1460 + dayOfEra / 36524 - dayOfEra / 146096) / 365
  let dayOfYear :=
    dayOfEra - (365 * yearOfEra + yearOfEra / 4 - yearOfEra / 100)
  let shiftedMonth := (5 * dayOfYear + 2) / 153
  let day := dayOfYear - (153 * shiftedMonth + 2) / 5 + 1
  let month := if shiftedMonth < 10 then shiftedMonth + 3 else shiftedMonth - 9
  let year := yearOfEra + era * 400 + (if month ≤ 2 then 1 else 0)
  (year, month, day)

/-- The date and the time, so many microseconds after the start of 1970. -/
def timestampText (microseconds : Nat) : String :=
  let seconds := microseconds / Nat.pow 10 6
  let (year, month, day) := civilDate (seconds / 86400)
  let date := Text.zeroPadded 4 year ++ "-" ++ Text.zeroPadded 2 month ++
    "-" ++ Text.zeroPadded 2 day
  let time := Text.zeroPadded 2 (seconds / 3600 % 24) ++ ":" ++
    Text.zeroPadded 2 (seconds / 60 % 60) ++ ":" ++
    Text.zeroPadded 2 (seconds % 60)
  date ++ "T" ++ time ++ "." ++
    Text.zeroPadded 6 (microseconds % Nat.pow 10 6) ++ "Z"

/-! ## Lines -/

inductive LogValue where
  | number (value : Nat)
  | text (value : String)
  deriving DecidableEq, Repr

namespace LogValue

/-- The value among words. -/
def plain : LogValue → String
  | number value => toString value
  | text value => value

/-- The value in a JSON line. -/
def json : LogValue → String
  | number value => toString value
  | text value => "\"" ++ value ++ "\""

end LogValue

/-- Something worth a line in the log. -/
structure LogEvent where
  message : String
  fields : List (String × LogValue)
  deriving DecidableEq, Repr

namespace LogEvent

/-- The part of the program that all lines come from. -/
def target : String := "packet_bench"

def names (event : LogEvent) : List String :=
  "message" :: event.fields.map Prod.fst

/-- The message and the fields among words. -/
def words (event : LogEvent) : String :=
  " ".intercalate <| event.message :: event.fields.map fun (name, value) =>
    name ++ "=" ++ value.plain

/-- The line in JSON, with a time of day if there is one. -/
def jsonLine (event : LogEvent) (time : Option String) : String :=
  let stamp := match time with
    | none => ""
    | some time => "\"timestamp\":\"" ++ time ++ "\","
  let fields := ("message", LogValue.text event.message) :: event.fields
  let shown := fields.map fun (name, value) =>
    "\"" ++ name ++ "\":" ++ value.json
  "\x7b" ++ stamp ++ "\"level\":\"INFO\",\"fields\":\x7b" ++
    ",".intercalate shown ++ "\x7d,\"target\":\"" ++ target ++ "\"\x7d"

/-- The line in words. The pretty layout also names the thread. -/
def wordLine (event : LogEvent) (thread : Option String)
    (time : Option String) : String :=
  let stamp := time.elim "" (· ++ " ")
  let origin := thread.elim "" (· ++ " ")
  stamp ++ " INFO " ++ origin ++ target ++ ": " ++ event.words

end LogEvent

namespace LogSettings

/-- The filter of a run. What the environment asks for goes before the
settings. -/
def filter (logging : LogSettings) (wish : Option String) : LogFilter :=
  .read (wish.getD logging.level)

/-- The line for an event at a time of day in microseconds, with its end; or
nothing, if the filter does not let it pass. -/
def line (logging : LogSettings) (filter : LogFilter) (microseconds : Nat)
    (event : LogEvent) : String :=
  if filter.isOpen LogEvent.target event.names .info then
    let time :=
      if logging.timestamps then some (timestampText microseconds) else none
    let text := match logging.format with
      | .pretty => event.wordLine (some "main") time
      | .compact => event.wordLine none time
      | .json => event.jsonLine time
    text ++ "\n"
  else ""

end LogSettings

end PooledPackets.Load
