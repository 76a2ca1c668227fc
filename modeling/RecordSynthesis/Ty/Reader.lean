import RecordSynthesis.Text.Alphanumeric
import RecordSynthesis.Text.Blank
import RecordSynthesis.Text.Position
import RecordSynthesis.Ty.Basic

/-!
# Reading types

The spelling of a type is cut into lexemes, each with its byte offset, and the lexemes drive a small pushdown machine:
the stack holds the generic types whose argument lists are still open. White space may stand before every lexeme and at
the end. Only white space of one byte is read over.
-/

namespace RecordSynthesis.Ty

set_option autoImplicit false

/-! ## Lexemes -/

inductive Token
  /-- A maximal run of letters, numbers, underscores and full stops. -/
  | word (chars : List Char)
  | less
  | comma
  | greater
  | brackets
  | question
  /-- White space of more than one byte. -/
  | wideBlank
  | stray (c : Char)
  deriving DecidableEq, Repr

structure Lexeme where
  token : Token
  offset : Nat
  deriving DecidableEq, Repr

def isWordChar (c : Char) : Bool :=
  Text.isAlphanumeric c || c = '_' || c = '.'

/-- Puts one character in front of a list of lexemes. It joins the first of them where a word goes on or where the two
brackets of an array touch. -/
def pushChar (offset : Nat) (c : Char) (following : List Lexeme) : List Lexeme :=
  if Text.isNarrowBlank c then following
  else if Text.isWideBlank c then ⟨.wideBlank, offset⟩ :: following
  else if isWordChar c then
    match following with
    | ⟨.word chars, start⟩ :: others =>
      if start = offset + c.utf8Size then ⟨.word (c :: chars), offset⟩ :: others
      else ⟨.word [c], offset⟩ :: following
    | _ => ⟨.word [c], offset⟩ :: following
  else if c = '[' then
    match following with
    | ⟨.stray d, start⟩ :: others =>
      if d = ']' ∧ start = offset + 1 then ⟨.brackets, offset⟩ :: others else ⟨.stray c, offset⟩ :: following
    | _ => ⟨.stray c, offset⟩ :: following
  else
    let token : Token :=
      if c = '<' then .less else if c = ',' then .comma else if c = '>' then .greater
      else if c = '?' then .question else .stray c
    ⟨token, offset⟩ :: following

def lexemes (offset : Nat) : List Char → List Lexeme
  | [] => []
  | c :: cs => pushChar offset c (lexemes (offset + c.utf8Size) cs)

/-! ## The machine -/

inductive Flaw
  | expectedName (offset : Nat)
  | unclosedArguments
  | trailingInput (offset : Nat)
  /-- White space of more than one byte where white space is read over. -/
  | wideBlank (offset : Nat)
  deriving DecidableEq, Repr

/-- A generic type whose argument list is open, with the arguments read so far. -/
structure Frame where
  name : String
  arguments : List Ty

/-- What the machine reads next: a name, or whatever may follow a finished type. A type that is a bare name may still
open an argument list. -/
inductive Mode
  | name
  | after (type : Ty) (bare : Option String)

/-- The type a word stands for, and the name under which it may take arguments. -/
def ofWord (scope : List String) (word : String) : Mode :=
  match Primitive.ofKeyword? word with
  | some p => .after (.primitive p) none
  | none =>
    if scope.contains word then .after (.parameter word) none
    else .after (.named word [] .reference) (some word)

/-- Only a digit of ASCII cannot begin a name. -/
def startsWithDigit : List Char → Bool
  | [] => false
  | c :: _ => c.isDigit

def step (scope : List String) : Mode → List Frame → Lexeme → Except Flaw (Mode × List Frame)
  | _, _, ⟨.wideBlank, offset⟩ => .error (.wideBlank offset)
  | .name, frames, ⟨.word chars, offset⟩ =>
    if startsWithDigit chars then .error (.expectedName offset)
    else .ok (ofWord scope (String.ofList chars), frames)
  | .name, _, ⟨_, offset⟩ => .error (.expectedName offset)
  | .after _ (some name), frames, ⟨.less, _⟩ => .ok (.name, ⟨name, []⟩ :: frames)
  | .after type _, frames, ⟨.brackets, _⟩ => .ok (.after (.array type) none, frames)
  | .after type _, frames, ⟨.question, _⟩ => .ok (.after (.nullable type) none, frames)
  | .after type _, frame :: frames, ⟨.comma, _⟩ =>
    .ok (.name, ⟨frame.name, frame.arguments ++ [type]⟩ :: frames)
  | .after type _, frame :: frames, ⟨.greater, _⟩ =>
    .ok (.after (.named frame.name (frame.arguments ++ [type]) .reference) none, frames)
  | .after _ _, _ :: _, _ => .error .unclosedArguments
  | .after _ _, [], ⟨_, offset⟩ => .error (.trailingInput offset)

/-- Runs the machine to the end of the text, which is at byte `size`. -/
def run (scope : List String) (size : Nat) : Mode → List Frame → List Lexeme → Except Flaw Ty
  | .name, _, [] => .error (.expectedName size)
  | .after type _, [], [] => .ok type
  | .after _ _, _ :: _, [] => .error .unclosedArguments
  | mode, frames, lexeme :: others =>
    match step scope mode frames lexeme with
    | .ok (next, stack) => run scope size next stack others
    | .error flaw => .error flaw

/-! ## Types from text -/

structure ReadError where
  text : String
  flaw : Flaw
  deriving DecidableEq, Repr

def ReadError.message (error : ReadError) : String :=
  match error.flaw with
  | .expectedName offset => "expected a type name in `" ++ error.text ++ "` at offset " ++ toString offset
  | .unclosedArguments => "unclosed type argument list in `" ++ error.text ++ "`"
  | .trailingInput offset => "unexpected input in `" ++ error.text ++ "` at offset " ++ toString offset
  | .wideBlank offset => "white space of several bytes in `" ++ error.text ++ "` at offset " ++ toString offset

/-- Reads a type, taking the names in `scope` for type parameters. Any other name is of reference kind until kinds are
resolved. -/
def read (text : String) (scope : List String) : Except ReadError Ty :=
  let chars := text.toList
  match run scope (Text.byteLength chars) .name [] (lexemes 0 chars) with
  | .ok type => .ok type
  | .error flaw => .error ⟨text, flaw⟩

end RecordSynthesis.Ty
