import RecordSynthesis.Datum.Toml.Document
import RecordSynthesis.Members.Options
import RecordSynthesis.Settings.Log

/-!
# The config file

A TOML document with a table `log` and a table `synthesis`, both optional; any other key is refused. The log values are
checked only when they are asked for.
-/

namespace RecordSynthesis

set_option autoImplicit false

structure LogTable where
  level : Option String := none
  format : Option String := none
  deriving DecidableEq, Repr, Inhabited

structure Config where
  log : LogTable := {}
  synthesis : SynthesisOptions := {}
  /-- The file that the config was read from, if any. -/
  path : Option String := none
  deriving DecidableEq, Repr, Inhabited

structure LogValueError where
  path : String
  key : String
  value : String
  deriving DecidableEq, Repr, Inhabited

def LogValueError.message (error : LogValueError) : String :=
  "invalid log " ++ error.key ++ " `" ++ error.value ++ "` in `" ++ error.path ++ "`"

def LogTable.ofDatum (datum : Datum) : Except DecodeError LogTable := do
  let opened ← Layout.open ⟨"LogTable", ["level", "format"], true⟩ .tables datum
  let level := opened.optional "level" none (Datum.asOption Datum.asText)
  let format := opened.optional "format" none (Datum.asOption Datum.asText)
  opened.settle [failure? level, failure? format]
  return { level := ← level, format := ← format }

namespace Config

/-- The config file that is read where none is named. -/
def defaultPath : String := "kiln.toml"

def ofDatum (datum : Datum) : Except DecodeError Config := do
  let opened ← Layout.open ⟨"Config", ["log", "synthesis"], true⟩ .tables datum
  let log := opened.optional "log" {} LogTable.ofDatum
  let synthesis := opened.optional "synthesis" {} (SynthesisOptions.ofDatum .tables)
  opened.settle [failure? log, failure? synthesis]
  return { log := ← log, synthesis := ← synthesis }

/-- Reads the text of a config file; nothing if it is no TOML or not of this layout. -/
def ofText? (text : String) : Option Config :=
  (Toml.read text).bind fun datum => (ofDatum datum).toOption

def check {α : Type} (config : Config) (key : String) (read : String → Option α) :
    Option String → Except LogValueError (Option α)
  | none => .ok none
  | some value =>
    match read value with
    | some setting => .ok (some setting)
    | none => .error ⟨config.path.getD defaultPath, key, value⟩

/-- The layer that the config file is to the log settings. The level is checked first. -/
def logSettings (config : Config) : Except LogValueError LogSettings := do
  let level ← config.check "level" LogLevel.ofText? config.log.level
  let format ← config.check "format" LogFormat.ofText? config.log.format
  return ⟨level, format⟩

end Config

end RecordSynthesis
