import PooledPackets.Config.Decoding
import PooledPackets.Document.Toml
import PooledPackets.Fragment.Header

/-!
# Settings of a load run

A load run sends datagrams from one pool to another one and measures how that
goes. Its settings are read from a TOML document and checked before anything
runs.
-/

namespace PooledPackets.Load

open Document

/-- How long a run takes and how many workers take part. -/
structure Schedule where
  /-- How long is measured. -/
  duration : Duration
  /-- How long the workers run before that. -/
  warmup : Duration
  threads : Nat
  deriving DecidableEq, Repr, Inhabited

inductive LogFormat where
  | pretty
  | compact
  | json
  deriving DecidableEq, Repr, Inhabited

/-- What is logged, and how. -/
structure LogSettings where
  /-- A list of filter directives, usually just a level. -/
  level : String := "info"
  format : LogFormat := .pretty
  /-- Each line starts with the time of day. -/
  timestamps : Bool := true
  deriving DecidableEq, Repr, Inhabited

structure PayloadRange where
  least : Nat
  greatest : Nat
  deriving DecidableEq, Repr, Inhabited

/-- What is sent over the link. -/
structure Workload where
  /-- The most payload bytes in one fragment on the link. -/
  mtu : Nat
  /-- Fragments arrive in any order. -/
  shuffle : Bool
  /-- Fragments cross the link as frames with a header. Otherwise they are
  copied from pool to pool. -/
  linkFrames : Bool
  payload : PayloadRange
  deriving DecidableEq, Repr, Inhabited

/-- All settings of a run. -/
structure Settings where
  schedule : Schedule
  logging : LogSettings
  /-- The pool that datagrams are sent from. -/
  pool : Config
  /-- The pool that datagrams are received in, if it is not like the first
  one. -/
  receiver : Option Config
  workload : Workload
  deriving DecidableEq, Repr, Inhabited

/-! ## Settings in a document -/

def Schedule.shape : RecordShape Schedule where
  title := "struct GeneralConfig"
  closed := false
  blank := default
  fields := [
    .of "duration" true .duration
      fun schedule value => { schedule with duration := value },
    .of "warmup" true .duration
      fun schedule value => { schedule with warmup := value },
    .of "threads" true .word
      fun schedule value => { schedule with threads := value }]

def LogFormat.names : List (String × LogFormat) :=
  [("pretty", .pretty), ("compact", .compact), ("json", .json)]

def LogSettings.shape : RecordShape LogSettings where
  title := "struct LoggingConfig"
  closed := false
  blank := {}
  fields := [
    .of "level" false .string
      fun logging value => { logging with level := value },
    .of "format" false (.variant LogFormat.names)
      fun logging value => { logging with format := value },
    .of "timestamps" false .boolean
      fun logging value => { logging with timestamps := value }]

def PayloadRange.shape : RecordShape PayloadRange where
  title := "struct PayloadConfig"
  closed := false
  blank := default
  fields := [
    .of "min" true .size
      fun range value => { range with least := value },
    .of "max" true .size
      fun range value => { range with greatest := value }]

def Workload.shape : RecordShape Workload where
  title := "struct WorkloadConfig"
  closed := false
  blank := default
  fields := [
    .of "mtu" true .word
      fun workload value => { workload with mtu := value },
    .of "shuffle" false .boolean
      fun workload value => { workload with shuffle := value },
    .of "link_frames" false .boolean
      fun workload value => { workload with linkFrames := value },
    .of "payload" true PayloadRange.shape.decoder
      fun workload value => { workload with payload := value }]

def Settings.shape : RecordShape Settings where
  title := "struct Config"
  closed := false
  blank := { (default : Settings) with logging := {}, pool := {} }
  fields := [
    .of "general" true Schedule.shape.decoder
      fun settings value => { settings with schedule := value },
    .of "logging" false LogSettings.shape.decoder
      fun settings value => { settings with logging := value },
    .of "pool" false Config.shape.decoder
      fun settings value => { settings with pool := value },
    .of "rx" false (.optional Config.shape.decoder)
      fun settings value => { settings with receiver := value },
    .of "workload" true Workload.shape.decoder
      fun settings value => { settings with workload := value }]

/-! ## Checking settings -/

/-- What a run cannot be made of. -/
inductive Objection where
  | noThreads
  | noMtu
  | emptyRange (least greatest : Nat)
  /-- There is no room for a fragment header ahead of the payload. -/
  | noHeaderRoom (reserve : Nat)
  deriving DecidableEq, Repr

namespace Objection

def message : Objection → String
  | noThreads => "threads must be at least 1"
  | noMtu => "mtu must be at least 1"
  | emptyRange least greatest =>
      s!"payload min ({least}) exceeds max ({greatest})"
  | noHeaderRoom reserve =>
      s!"link_frames needs a pool header_reserve of at least {FragmentHeader.size} bytes, got {reserve}"

end Objection

/-- Why there are no settings. -/
inductive SettingsError where
  /-- The text is no TOML document. -/
  | notToml (error : SyntaxError)
  | undecodable (error : Located DecodeError)
  | rejected (objection : Objection)
  | invalidPool (error : ConfigError)
  /-- The sizes of a pool are too large to be worked with. -/
  | overflow

namespace Settings

/-- The configuration of the receiving pool. -/
def receiverConfig (settings : Settings) : Config :=
  settings.receiver.getD { settings.pool with name := "rx" }

/-- The layout of a pool with a configuration. -/
def layoutOf (config : Config) : Except SettingsError Layout :=
  match config.validate with
  | .accepted layout => .ok layout
  | .refused error => .error (.invalidPool error)
  | .overflow => .error .overflow

/-- The objection to the schedule or the workload, if there is one. -/
def objection? (settings : Settings) : Option Objection :=
  let range := settings.workload.payload
  if settings.schedule.threads = 0 then some .noThreads
  else if settings.workload.mtu = 0 then some .noMtu
  else if range.greatest < range.least then
    some (.emptyRange range.least range.greatest)
  else none

/-- Checks settings: the schedule and the workload first, then both pools, and
last that frames have room for their headers. -/
def check (settings : Settings) : Except SettingsError PUnit := do
  match settings.objection? with
  | some objection => throw (.rejected objection)
  | none => pure ⟨⟩
  let layout ← layoutOf settings.pool
  let _ ← layoutOf settings.receiverConfig
  if settings.workload.linkFrames ∧
      layout.headerReserve < FragmentHeader.size then
    throw (.rejected (.noHeaderRoom layout.headerReserve))
  else pure ⟨⟩

def read (text : String) : Except SettingsError Settings :=
  match readToml text with
  | .error error => .error (.notToml error)
  | .ok document =>
      match Settings.shape.decoder .toml document with
      | .error error => .error (.undecodable error)
      | .ok settings => do
          settings.check
          pure settings

end Settings

end PooledPackets.Load
