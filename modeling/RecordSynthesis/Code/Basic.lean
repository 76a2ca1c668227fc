import RecordSynthesis.Members.Set

/-!
# Code trees

Bodies of synthesized members: statement lists over a small expression language, independent of any target. The operands
of `andAlso` and `orElse` are evaluated from left to right, and the second only if needed.
-/

namespace RecordSynthesis.Code

set_option autoImplicit false

structure FieldRef where
  owner : Ty
  name : String
  type : Ty
  deriving Repr, Inhabited

structure MethodRef where
  owner : Ty
  name : String
  types : List Ty
  returnType : Option Ty
  deriving Repr, Inhabited

inductive ConstructorRef
  | object
  | record (type : Ty) (types : List Ty)
  deriving Repr, Inhabited

inductive Expr
  | this
  | parameter (name : String)
  | bool (value : Bool)
  | text (value : String)
  | loadField (target : Expr) (field : FieldRef)
  | loadProperty (target : Expr) (owner : Ty) (name : String) (type : Ty)
  | create (type : Ty) (types : List Ty) (arguments : List Expr)
  | callInstance (receiver : Expr) (method : MethodRef) (arguments : List Expr)
  /-- A call of the base's own implementation, on the same instance. -/
  | callBase (method : MethodRef) (arguments : List Expr)
  | callStatic (method : MethodRef) (arguments : List Expr)
  | memberEquals (strategy : EqualityStrategy) (type : Ty) (left right : Expr)
  | memberHash (strategy : EqualityStrategy) (type : Ty) (value : Expr)
  | combineHashes (left right : Expr)
  | typeHash (type : Ty)
  | andAlso (left right : Expr)
  | orElse (left right : Expr)
  | not (operand : Expr)
  | isNull (operand : Expr)
  /-- Whether the runtime type is this one and no type derived from it; false of null. -/
  | isExactly (operand : Expr) (type : Ty)
  | cast (operand : Expr) (type : Ty)
  | referenceEquals (left right : Expr)
  | concat (parts : List Expr)
  | toText (value : Expr) (type : Ty)
  deriving Repr, Inhabited

inductive Stmt
  | storeField (target : Expr) (field : FieldRef) (value : Expr)
  | storeOut (parameter : String) (value : Expr)
  | callBaseConstructor (constructor : ConstructorRef) (arguments : List Expr)
  | when (condition : Expr) (body : List Stmt)
  | exit (value : Option Expr)
  /-- A body that the program spells out, by its number. -/
  | userBody (body : UInt32)
  deriving Repr, Inhabited

inductive FunctionKind
  | constructor
  | method
  | getter
  | initAccessor
  | operator
  deriving DecidableEq, Repr, Inhabited

def FunctionKind.word : FunctionKind → String
  | .constructor => "constructor"
  | .method => "method"
  | .getter => "getter"
  | .initAccessor => "init"
  | .operator => "operator"

structure Function where
  owner : Ty
  name : String
  kind : FunctionKind
  parameters : List Decl.Parameter := []
  returnType : Option Ty := none
  isStatic : Bool := false
  isOverride : Bool := false
  body : List Stmt := []
  deriving Repr, Inhabited

structure Module where
  record : String
  functions : List Function
  deriving Repr, Inhabited

def Module.function? (module : Module) (name : String) : Option Function :=
  module.functions.find? fun function => function.name = name

end RecordSynthesis.Code
