/-!
# Log settings

The level and the format of the log, put together from layers: what a layer leaves open, the layer below decides.
-/

namespace RecordSynthesis

set_option autoImplicit false

inductive LogLevel
  | error
  | warn
  | info
  | debug
  | trace
  deriving DecidableEq, Repr, Inhabited

inductive LogFormat
  | auto
  | text
  | json
  deriving DecidableEq, Repr, Inhabited

def foldCase (spelling : String) : String :=
  String.ofList (spelling.toList.map Char.toLower)

namespace LogLevel

def word : LogLevel → String
  | error => "error"
  | warn => "warn"
  | info => "info"
  | debug => "debug"
  | trace => "trace"

/-- The tag that log lines of the level carry. -/
def tag : LogLevel → String
  | error => "ERROR"
  | warn => "WARN"
  | info => "INFO"
  | debug => "DEBUG"
  | trace => "TRACE"

def spellings : List (String × LogLevel) :=
  [("error", error), ("err", error), ("warn", warn), ("warning", warn), ("info", info), ("debug", debug),
    ("trace", trace)]

def ofText? (spelling : String) : Option LogLevel :=
  spellings.lookup (foldCase spelling)

end LogLevel

namespace LogFormat

def word : LogFormat → String
  | auto => "auto"
  | text => "text"
  | json => "json"

def spellings : List (String × LogFormat) :=
  [("auto", auto), ("text", text), ("plain", text), ("json", json)]

def ofText? (spelling : String) : Option LogFormat :=
  spellings.lookup (foldCase spelling)

end LogFormat

/-! ## Layers -/

structure LogSettings where
  level : Option LogLevel := none
  format : Option LogFormat := none
  deriving DecidableEq, Repr, Inhabited

def LogSettings.isEmpty (settings : LogSettings) : Bool :=
  settings.level.isNone && settings.format.isNone

/-- The layer of two environment variables. A value that cannot be read decides nothing. -/
def LogSettings.ofEnvironment (level format : Option String) : LogSettings :=
  ⟨level.bind LogLevel.ofText?, format.bind LogFormat.ofText?⟩

structure LogOptions where
  level : LogLevel := .info
  format : LogFormat := .auto
  deriving DecidableEq, Repr, Inhabited

namespace LogOptions

def override (options : LogOptions) (settings : LogSettings) : LogOptions :=
  ⟨settings.level.getD options.level, settings.format.getD options.format⟩

/-- From the defaults upwards: the config file, the environment, the command line. -/
def layered (file environment commandLine : LogSettings) : LogOptions :=
  ((({} : LogOptions).override file).override environment).override commandLine

/-- The decision with the format made definite. -/
def resolved (options : LogOptions) : LogOptions :=
  match options.format with
  | .auto => { options with format := .text }
  | _ => options

end LogOptions

/-! ## Events -/

structure LogEvent where
  level : LogLevel
  message : String
  deriving DecidableEq, Repr, Inhabited

def LogOptions.admits (options : LogOptions) (level : LogLevel) : Bool :=
  level.ctorIdx ≤ options.level.ctorIdx

end RecordSynthesis
