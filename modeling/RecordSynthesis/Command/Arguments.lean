import RecordSynthesis.Settings.Log

/-!
# Command lines

A command line names a task and the unit that it is about. The options for config and log may stand before the task or
behind it, and those behind it win. An option is given at most once on either side.
-/

namespace RecordSynthesis

set_option autoImplicit false

inductive Task
  | members
  | lower
  | check
  deriving DecidableEq, Repr, Inhabited

def Task.ofWord? : String → Option Task
  | "members" => some .members
  | "lower" => some .lower
  | "check" => some .check
  | _ => none

structure Invocation where
  task : Task
  unit : String
  record : Option String := none
  json : Bool := false
  noColor : Bool := false
  config : Option String := none
  log : LogSettings := {}
  deriving DecidableEq, Repr, Inhabited

namespace Arguments

/-! ## Options -/

/-- The options that one side of the task admits. -/
structure Admitted where
  valued : List String
  flags : List String

def beforeTask : Admitted := ⟨["config", "log-level", "log-format"], []⟩

def behindTask : Admitted := ⟨["config", "log-level", "log-format", "record"], ["json", "no-color"]⟩

inductive Shape
  | word
  /-- Two dashes: everything behind them is a word. -/
  | escape
  | option (name : String) (value : Option String)
  /-- A single dash with letters, which no option has. -/
  | short
  deriving DecidableEq, Repr

def Shape.ofArgument (argument : String) : Shape :=
  match argument.toList with
  | ['-', '-'] => .escape
  | '-' :: '-' :: rest =>
    let name := String.ofList (rest.takeWhile (· ≠ '='))
    match rest.dropWhile (· ≠ '=') with
    | _ :: value => .option name (some (String.ofList value))
    | [] => .option name none
  | '-' :: _ :: _ => .short
  | _ => .word

structure Found where
  values : List (String × String) := []
  flags : List String := []
  words : List String := []
  deriving DecidableEq, Repr, Inhabited

def Found.value? (found : Found) (name : String) : Option String :=
  found.values.lookup name

def Found.addValue (found : Found) (name value : String) : Option Found :=
  if (found.value? name).isSome then none else some { found with values := found.values ++ [(name, value)] }

def Found.addFlag (found : Found) (name : String) : Option Found :=
  if found.flags.contains name then none else some { found with flags := found.flags ++ [name] }

/-- Collects the options behind the task and all words. A value of its own does not look like an option. -/
def collect (admitted : Admitted) (found : Found) : List String → Option Found
  | [] => some found
  | argument :: rest =>
    match Shape.ofArgument argument with
    | .word => collect admitted { found with words := found.words ++ [argument] } rest
    | .escape => some { found with words := found.words ++ rest }
    | .short => none
    | .option name (some value) =>
      if admitted.valued.contains name then
        match found.addValue name value with
        | some more => collect admitted more rest
        | none => none
      else none
    | .option name none =>
      if admitted.flags.contains name then
        match found.addFlag name with
        | some more => collect admitted more rest
        | none => none
      else if admitted.valued.contains name then
        match rest with
        | [] => none
        | value :: others =>
          if Shape.ofArgument value = .word then
            match found.addValue name value with
            | some more => collect admitted more others
            | none => none
          else none
      else none

/-- Splits a command line at its first word that is no value of an option. -/
def splitAtTask (admitted : Admitted) (before : List String) : List String → Option (List String × String × List String)
  | [] => none
  | argument :: rest =>
    match Shape.ofArgument argument with
    | .word => some (before.reverse, argument, rest)
    | .option name none =>
      if admitted.valued.contains name then
        match rest with
        | [] => none
        | value :: others => splitAtTask admitted (value :: argument :: before) others
      else none
    | .option _ (some _) => splitAtTask admitted (argument :: before) rest
    | _ => none

/-! ## Values -/

/-- A value that has to be readable if it is given. -/
def readable {α : Type} (read : String → Option α) : Option String → Option (Option α)
  | none => some none
  | some value => (read value).map some

def readPath (path : String) : Option String :=
  if path.isEmpty then none else some path

structure Shared where
  config : Option String
  level : Option LogLevel
  format : Option LogFormat

def Shared.ofFound (found : Found) : Option Shared := do
  let config ← readable readPath (found.value? "config")
  let level ← readable LogLevel.ofText? (found.value? "log-level")
  let format ← readable LogFormat.ofText? (found.value? "log-format")
  return ⟨config, level, format⟩

end Arguments

open Arguments in
/-- Reads a command line, without the name of the program; nothing if it is not well-formed. -/
def Invocation.ofArguments? (arguments : List String) : Option Invocation := do
  let (before, word, behind) ← splitAtTask beforeTask [] arguments
  let outer ← Shared.ofFound (← collect beforeTask {} before)
  let task ← Task.ofWord? word
  let found ← collect behindTask {} behind
  let inner ← Shared.ofFound found
  match found.words with
  | [unit] =>
    let unit ← readPath unit
    return {
      task
      unit
      record := found.value? "record"
      json := found.flags.contains "json"
      noColor := found.flags.contains "no-color"
      config := inner.config.or outer.config
      log := ⟨inner.level.or outer.level, inner.format.or outer.format⟩ }
  | _ => none

end RecordSynthesis
