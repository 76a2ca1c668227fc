import RecordSynthesis.Code.Lowering
import RecordSynthesis.Proofs.Inheritance

/-!
# References in code

A scope says which parameters, fields, properties, methods and constructors code may name. Code is within a scope if
every name in it, at any depth, is in that scope.
-/

namespace RecordSynthesis

set_option autoImplicit false

namespace Code

structure Scope where
  parameter : String → Prop
  output : String → Prop
  field : FieldRef → Prop
  property (owner : Ty) (name : String) (type : Ty) : Prop
  method (isStatic : Bool) (method : MethodRef) : Prop
  constructor (type : Ty) (types : List Ty) : Prop

mutual

def Expr.Within (scope : Scope) : Expr → Prop
  | .this | .bool _ | .text _ | .typeHash _ => True
  | .parameter name => scope.parameter name
  | .loadField target field => target.Within scope ∧ scope.field field
  | .loadProperty target owner name type => target.Within scope ∧ scope.property owner name type
  | .create type types arguments => scope.constructor type types ∧ Expr.AllWithin scope arguments
  | .callInstance receiver method arguments =>
    receiver.Within scope ∧ scope.method false method ∧ Expr.AllWithin scope arguments
  | .callBase method arguments => scope.method false method ∧ Expr.AllWithin scope arguments
  | .callStatic method arguments => scope.method true method ∧ Expr.AllWithin scope arguments
  | .memberEquals _ _ left right | .combineHashes left right | .andAlso left right | .orElse left right
  | .referenceEquals left right => left.Within scope ∧ right.Within scope
  | .memberHash _ _ operand | .not operand | .isNull operand | .isExactly operand _ | .cast operand _
  | .toText operand _ => operand.Within scope
  | .concat parts => Expr.AllWithin scope parts

def Expr.AllWithin (scope : Scope) : List Expr → Prop
  | [] => True
  | expr :: others => expr.Within scope ∧ Expr.AllWithin scope others

end

mutual

def Stmt.Within (scope : Scope) : Stmt → Prop
  | .storeField target field value => target.Within scope ∧ scope.field field ∧ value.Within scope
  | .storeOut parameter value => scope.output parameter ∧ value.Within scope
  | .callBaseConstructor _ arguments => Expr.AllWithin scope arguments
  | .when condition body => condition.Within scope ∧ Stmt.AllWithin scope body
  | .exit (some value) => value.Within scope
  | .exit none | .userBody _ => True

def Stmt.AllWithin (scope : Scope) : List Stmt → Prop
  | [] => True
  | stmt :: others => stmt.Within scope ∧ Stmt.AllWithin scope others

end

theorem Expr.allWithin_iff (scope : Scope) (exprs : List Expr) :
    Expr.AllWithin scope exprs ↔ ∀ expr ∈ exprs, expr.Within scope := by
  induction exprs with
  | nil => simp [Expr.AllWithin]
  | cons expr others ih => simp [Expr.AllWithin, ih]

theorem Stmt.allWithin_iff (scope : Scope) (stmts : List Stmt) :
    Stmt.AllWithin scope stmts ↔ ∀ stmt ∈ stmts, stmt.Within scope := by
  induction stmts with
  | nil => simp [Stmt.AllWithin]
  | cons stmt others ih => simp [Stmt.AllWithin, ih]

theorem Stmt.allWithin_append {scope : Scope} {stmts others : List Stmt} :
    Stmt.AllWithin scope (stmts ++ others) ↔ Stmt.AllWithin scope stmts ∧ Stmt.AllWithin scope others := by
  rw [allWithin_iff, allWithin_iff, allWithin_iff, List.forall_mem_append]

end Code

end RecordSynthesis
