/-!
# Files by path

What a run sees of the file system: for every path, a text or the reason why there is none.
-/

namespace RecordSynthesis

set_option autoImplicit false

inductive FileError
  | notFound
  | notDirectory
  | isDirectory
  | nameTooLong
  | nulByte
  | notText
  | noAccess
  deriving DecidableEq, Repr, Inhabited

def FileError.message : FileError → String
  | .notFound => "No such file or directory (os error 2)"
  | .notDirectory => "Not a directory (os error 20)"
  | .isDirectory => "Is a directory (os error 21)"
  | .nameTooLong => "File name too long (os error 36)"
  | .nulByte => "file name contained an unexpected NUL byte"
  | .notText => "stream did not contain valid UTF-8"
  | .noAccess => "Permission denied (os error 13)"

/-- What stands at a path: a file, be it readable or not, or something else. -/
inductive FileState
  | file (content : Except FileError String)
  | noFile (error : FileError)

def FileState.isFile : FileState → Bool
  | .file _ => true
  | .noFile _ => false

def FileState.content : FileState → Except FileError String
  | .file content => content
  | .noFile error => .error error

abbrev FileView := String → FileState

/-! ## Paths -/

namespace Path

/-- The names of a path, with empty ones where slashes touch. -/
def components (path : String) : List String :=
  (path.toList.splitOn '/').map String.ofList

/-- The names that lead somewhere else. -/
def steps (path : String) : List String :=
  (components path).filter fun name => name ≠ "" && name ≠ "."

/-- What follows the last full stop of the last name; a full stop in front begins no extension. -/
def extension? (path : String) : Option String :=
  match (steps path).getLast? with
  | none => none
  | some name =>
    if name = ".." then none
    else
      let reversed := name.toList.reverse
      let ending := reversed.takeWhile (· ≠ '.')
      match reversed.drop ending.length with
      | [] => none
      | [_] => none
      | _ => some (String.ofList ending.reverse)

end Path

end RecordSynthesis
