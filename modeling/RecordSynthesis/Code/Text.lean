import RecordSynthesis.Code.Basic
import RecordSynthesis.Text.Quoted

/-!
# The text of code trees

Expressions are written with the fewest parentheses that keep their structure; statements one to a line, with nested
blocks indented.
-/

namespace RecordSynthesis.Code

set_option autoImplicit false

/-! ## Expressions -/

/-- How strongly the constructs bind that may need parentheses. -/
def orStrength : Nat := 1
def andStrength : Nat := 2
def comparisonStrength : Nat := 4
def unaryStrength : Nat := 5
def atomStrength : Nat := 6

/-- Parentheses around a construct that binds less strongly than its place asks for. -/
def enclose (strength least : Nat) (body : String) : String :=
  if strength < least then "(" ++ body ++ ")" else body

mutual

/-- The text of an expression where at least the given strength is asked for. -/
def Expr.render : Expr → Nat → String
  | .this, _ => "this"
  | .parameter name, _ => name
  | .bool value, _ => if value then "true" else "false"
  | .text value, _ => Text.quoted value
  | .loadField target field, _ => target.render atomStrength ++ "." ++ field.name
  | .loadProperty target _ name _, _ => target.render atomStrength ++ "." ++ name
  | .create type _ arguments, _ => "new " ++ type.canonical ++ "(" ++ renderArguments arguments ++ ")"
  | .callInstance receiver method arguments, _ =>
    receiver.render atomStrength ++ "." ++ method.name ++ "(" ++ renderArguments arguments ++ ")"
  | .callBase method arguments, _ => "base." ++ method.name ++ "(" ++ renderArguments arguments ++ ")"
  | .callStatic method arguments, _ =>
    method.owner.canonical ++ "::" ++ method.name ++ "(" ++ renderArguments arguments ++ ")"
  | .memberEquals .bitwise _ left right, least =>
    enclose comparisonStrength least (left.render unaryStrength ++ " == " ++ right.render unaryStrength)
  | .memberEquals .valueDefault type left right, _ =>
    "default_eq<" ++ type.canonical ++ ">(" ++ left.render 0 ++ ", " ++ right.render 0 ++ ")"
  | .memberEquals .referenceDefault type left right, _ =>
    "virtual_eq<" ++ type.canonical ++ ">(" ++ left.render 0 ++ ", " ++ right.render 0 ++ ")"
  | .memberHash _ type value, _ => "hash<" ++ type.canonical ++ ">(" ++ value.render 0 ++ ")"
  | .combineHashes left right, _ => "combine(" ++ left.render 0 ++ ", " ++ right.render 0 ++ ")"
  | .typeHash type, _ => "typehash(" ++ type.canonical ++ ")"
  | .andAlso left right, least =>
    enclose andStrength least (left.render andStrength ++ " && " ++ right.render (andStrength + 1))
  | .orElse left right, least =>
    enclose orStrength least (left.render orStrength ++ " || " ++ right.render (orStrength + 1))
  | .not operand, least => enclose unaryStrength least ("!" ++ operand.render atomStrength)
  | .isNull operand, least => enclose comparisonStrength least (operand.render unaryStrength ++ " is null")
  | .isExactly operand type, least =>
    enclose comparisonStrength least (operand.render unaryStrength ++ " is exactly " ++ type.canonical)
  | .cast operand type, least =>
    enclose unaryStrength least ("(" ++ type.canonical ++ ")" ++ operand.render atomStrength)
  | .referenceEquals left right, _ => "ReferenceEquals(" ++ left.render 0 ++ ", " ++ right.render 0 ++ ")"
  | .concat parts, _ => "concat(" ++ renderArguments parts ++ ")"
  | .toText value _, _ => "to_text(" ++ value.render 0 ++ ")"

def renderArguments : List Expr → String
  | [] => ""
  | argument :: others => argument.render 0 ++ renderOthers others

def renderOthers : List Expr → String
  | [] => ""
  | argument :: others => ", " ++ argument.render 0 ++ renderOthers others

end

/-! ## Statements -/

def indent (depth : Nat) : String :=
  String.ofList (List.replicate (4 * depth) ' ')

mutual

def Stmt.render (depth : Nat) : Stmt → String
  | .storeField target field value =>
    indent depth ++ target.render atomStrength ++ "." ++ field.name ++ " = " ++ value.render 0
  | .storeOut parameter value => indent depth ++ "out " ++ parameter ++ " = " ++ value.render 0
  | .callBaseConstructor .object arguments =>
    indent depth ++ "call base object::.ctor(" ++ renderArguments arguments ++ ")"
  | .callBaseConstructor (.record type _) arguments =>
    indent depth ++ "call base " ++ type.canonical ++ "::.ctor(" ++ renderArguments arguments ++ ")"
  | .when condition body => indent depth ++ "if " ++ condition.render 0 ++ ":" ++ renderBlock (depth + 1) body
  | .exit none => indent depth ++ "return"
  | .exit (some value) => indent depth ++ "return " ++ value.render 0
  | .userBody body => indent depth ++ "<user body #" ++ toString body.toNat ++ ">"

def renderBlock (depth : Nat) : List Stmt → String
  | [] => ""
  | stmt :: others => "\n" ++ stmt.render depth ++ renderBlock depth others

end

/-! ## Functions -/

def renderParameter (p : Decl.Parameter) : String :=
  (match p.mode with
    | .byValue => ""
    | .byIn => "in "
    | .byRef => "ref "
    | .byOut => "out ")
  ++ p.name ++ ": " ++ p.type.canonical
  ++ match p.defaultValue with
    | some value => " = " ++ value
    | none => ""

def Function.render (function : Function) : String :=
  (if function.isStatic then "static " else "") ++ (if function.isOverride then "override " else "")
    ++ function.kind.word ++ " " ++ function.owner.canonical ++ "::" ++ function.name ++ "("
    ++ String.intercalate ", " (function.parameters.map renderParameter) ++ ")"
    ++ (match function.returnType with
      | some type => " -> " ++ type.canonical
      | none => "")
    ++ renderBlock 1 function.body

def Module.render (module : Module) : String :=
  String.intercalate "\n\n" (module.functions.map Function.render)

end RecordSynthesis.Code
