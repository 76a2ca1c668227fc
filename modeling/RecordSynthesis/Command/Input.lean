import RecordSynthesis.Command.Files
import RecordSynthesis.Decl.Decoding
import RecordSynthesis.Settings.Config

/-!
# Input files

Reading the config and the compilation unit from files. The name of a unit decides its format.
-/

namespace RecordSynthesis

set_option autoImplicit false

inductive UnitFormat
  | json
  | toml
  deriving DecidableEq, Repr, Inhabited

def UnitFormat.ofExtension? : Option String → Option UnitFormat
  | some "json" => some .json
  | some "toml" => some .toml
  | _ => none

/-- The datum that a text begins with. A TOML document is read as a whole or not at all. -/
def UnitFormat.scan (format : UnitFormat) (text : String) : Document :=
  match format with
  | .json => Json.scan text
  | .toml => ⟨(Toml.read text).getD .broken, true⟩

def UnitFormat.reading : UnitFormat → Reading
  | .json => .document
  | .toml => .tables

/-- Why a text is no compilation unit. -/
inductive UnitError
  /-- The text is not well-formed in its format. -/
  | malformed (format : UnitFormat)
  | refused (format : UnitFormat) (error : DecodeError)
  deriving Repr

def UnitError.message : UnitError → String
  | .malformed .json => "malformed JSON"
  | .malformed .toml => "malformed TOML"
  | .refused _ error => error.message

inductive InputError
  | unreadable (path : String) (error : FileError)
  | unsupported (path : String)
  | undecodable (path : String) (error : UnitError)
  | invalidConfig (path : String)
  deriving Repr

def InputError.message : InputError → String
  | .unreadable path error => "failed to read `" ++ path ++ "`: " ++ error.message
  | .unsupported path => "`" ++ path ++ "` is not a .json or .toml compilation unit"
  | .undecodable path error => "failed to decode `" ++ path ++ "`: " ++ error.message
  | .invalidConfig path => "invalid config `" ++ path ++ "`: malformed or not of the expected layout"

def FileView.text (files : FileView) (path : String) : Except InputError String :=
  match (files path).content with
  | .ok text => .ok text
  | .error error => .error (.unreadable path error)

/-! ## The config -/

def Config.ofFile (files : FileView) (path : String) : Except InputError Config := do
  let text ← files.text path
  match Config.ofText? text with
  | some config => .ok { config with path := some path }
  | none => .error (.invalidConfig path)

/-- The config of the named file; else of the default file, if there is one. -/
def Config.load (files : FileView) : Option String → Except InputError Config
  | some path => Config.ofFile files path
  | none => if (files Config.defaultPath).isFile then Config.ofFile files Config.defaultPath else .ok {}

/-! ## The unit -/

namespace Decl.CompilationUnit

def ofText (format : UnitFormat) (text : String) : Except UnitError CompilationUnit :=
  let document := format.scan text
  match ofDatum format.reading document.datum with
  | .ok unit => if document.isClosed then .ok unit else .error (.malformed format)
  | .error .malformed => .error (.malformed format)
  | .error error => .error (.refused format error)

/-- The unit of a file, with the names in its types resolved. -/
def load (files : FileView) (path : String) : Except InputError CompilationUnit :=
  match UnitFormat.ofExtension? (Path.extension? path) with
  | none => .error (.unsupported path)
  | some format => do
    let text ← files.text path
    match ofText format text with
    | .ok unit => .ok unit.resolve
    | .error error => .error (.undecodable path error)

end Decl.CompilationUnit

end RecordSynthesis
