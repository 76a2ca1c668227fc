/-!
# Type references

A type as a declaration refers to it. Two references are the same type when they agree in everything but the recorded
kind of a named type: a name stands for one declaration, so its kind follows from the name.
-/

namespace RecordSynthesis

set_option autoImplicit false

inductive TypeKind
  | value
  | reference
  deriving DecidableEq, Repr, Inhabited

def TypeKind.word : TypeKind → String
  | .value => "value"
  | .reference => "reference"

/-- The built-in types, each with a keyword of its own. -/
inductive Primitive
  | bool
  | char
  | sbyte
  | byte
  | short
  | ushort
  | int
  | uint
  | long
  | ulong
  | float
  | double
  | decimal
  | string
  | object
  deriving DecidableEq, Repr, Inhabited

namespace Primitive

def all : List Primitive :=
  [bool, char, sbyte, byte, short, ushort, int, uint, long, ulong, float, double, decimal, string, object]

def keyword : Primitive → String
  | bool => "bool"
  | char => "char"
  | sbyte => "sbyte"
  | byte => "byte"
  | short => "short"
  | ushort => "ushort"
  | int => "int"
  | uint => "uint"
  | long => "long"
  | ulong => "ulong"
  | float => "float"
  | double => "double"
  | decimal => "decimal"
  | string => "string"
  | object => "object"

def ofKeyword? (word : String) : Option Primitive :=
  all.find? fun primitive => primitive.keyword == word

def kind : Primitive → TypeKind
  | string | object => .reference
  | _ => .value

/-- Integers, truth values and characters: equal exactly when their bits are. Floating point and decimal numbers are
not, for their `==` treats some bit patterns alike. -/
def hasBitwiseEquality : Primitive → Bool
  | float | double | decimal | string | object => false
  | _ => true

theorem mem_all (primitive : Primitive) : primitive ∈ all := by
  cases primitive <;> decide

theorem ofKeyword?_keyword (primitive : Primitive) : ofKeyword? primitive.keyword = some primitive := by
  cases primitive <;> rfl

theorem keyword_of_ofKeyword? {word : String} {primitive : Primitive} (h : ofKeyword? word = some primitive) :
    primitive.keyword = word := by
  simpa using List.find?_some h

end Primitive

inductive Ty
  | primitive (primitive : Primitive)
  | named (name : String) (arguments : List Ty) (kind : TypeKind)
  /-- A type parameter of the declaration the reference stands in. -/
  | parameter (name : String)
  | array (element : Ty)
  | nullable (underlying : Ty)
  deriving Repr, Inhabited

namespace Ty

def bool : Ty := .primitive .bool
def int : Ty := .primitive .int
def string : Ty := .primitive .string
def object : Ty := .primitive .object

/-- Whether values are copied. Nothing is known of a type parameter, so it counts as shared. -/
def isValueType : Ty → Bool
  | .primitive p => p.kind = .value
  | .named _ _ kind => kind = .value
  | .parameter _ | .array _ => false
  | .nullable _ => true

mutual

/-- The text that stands for the type in signatures and in output. -/
def canonical : Ty → String
  | .primitive p => p.keyword
  | .named name [] _ => name
  | .named name (argument :: others) _ => name ++ "<" ++ canonical argument ++ canonicalOthers others ++ ">"
  | .parameter name => name
  | .array element => canonical element ++ "[]"
  | .nullable underlying => canonical underlying ++ "?"

def canonicalOthers : List Ty → String
  | [] => ""
  | argument :: others => ", " ++ canonical argument ++ canonicalOthers others

end

mutual

/-- Identity of types: no conversions, and the kind of a name is not compared. -/
def same : Ty → Ty → Bool
  | .primitive p, .primitive q => p = q
  | .named n xs _, .named m ys _ => n = m && sameAll xs ys
  | .parameter n, .parameter m => n = m
  | .array x, .array y => same x y
  | .nullable x, .nullable y => same x y
  | _, _ => false

def sameAll : List Ty → List Ty → Bool
  | [], [] => true
  | x :: xs, y :: ys => same x y && sameAll xs ys
  | _, _ => false

end

end Ty

end RecordSynthesis
