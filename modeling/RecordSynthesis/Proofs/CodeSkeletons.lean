import RecordSynthesis.Code.Text

/-!
# What is written of code

The skeleton of an expression or a statement keeps the form of each node, its operands, names, literals and the texts of
its types. It loses what is not written: the owner and the type of a field or property, and which of the two it is; the
parameter types of methods and constructors, the results of methods, and their owners where they are not called
statically; the type of a bitwise comparison and of a value turned to text; the strategy of a hash. The base constructor
of `object` is known by its type alone. The texts of code are the texts of its skeletons.
-/

namespace RecordSynthesis.Code

set_option autoImplicit false

inductive Builtin
  | valueEquals
  | virtualEquals
  | hash
  | combine
  | referenceEquals
  | concat
  | toText
  deriving DecidableEq, Repr

def Builtin.word : Builtin → String
  | .valueEquals => "default_eq"
  | .virtualEquals => "virtual_eq"
  | .hash => "hash"
  | .combine => "combine"
  | .referenceEquals => "ReferenceEquals"
  | .concat => "concat"
  | .toText => "to_text"

inductive Callee
  | create (type : String)
  | base (method : String)
  | static (owner method : String)
  | builtin (operation : Builtin) (type : Option String)
  deriving DecidableEq, Repr

inductive ExprSkeleton
  | this
  | parameter (name : String)
  | bool (value : Bool)
  | text (value : String)
  | load (target : ExprSkeleton) (name : String)
  | call (callee : Callee) (arguments : List ExprSkeleton)
  | send (receiver : ExprSkeleton) (method : String) (arguments : List ExprSkeleton)
  | typeHash (type : String)
  | equal (left right : ExprSkeleton)
  | andAlso (left right : ExprSkeleton)
  | orElse (left right : ExprSkeleton)
  | not (operand : ExprSkeleton)
  | isNull (operand : ExprSkeleton)
  | isExactly (operand : ExprSkeleton) (type : String)
  | cast (operand : ExprSkeleton) (type : String)
  deriving Repr

inductive StmtSkeleton
  | store (target : ExprSkeleton) (field : String) (value : ExprSkeleton)
  | storeOut (parameter : String) (value : ExprSkeleton)
  | callBaseConstructor (type : String) (arguments : List ExprSkeleton)
  | when (condition : ExprSkeleton) (body : List StmtSkeleton)
  | exit (value : Option ExprSkeleton)
  | userBody (body : UInt32)
  deriving Repr

mutual

def Expr.skeleton : Expr → ExprSkeleton
  | .this => .this
  | .parameter name => .parameter name
  | .bool value => .bool value
  | .text value => .text value
  | .loadField target field => .load target.skeleton field.name
  | .loadProperty target _ name _ => .load target.skeleton name
  | .create type _ arguments => .call (.create type.canonical) (skeletons arguments)
  | .callInstance receiver method arguments => .send receiver.skeleton method.name (skeletons arguments)
  | .callBase method arguments => .call (.base method.name) (skeletons arguments)
  | .callStatic method arguments => .call (.static method.owner.canonical method.name) (skeletons arguments)
  | .memberEquals .bitwise _ left right => .equal left.skeleton right.skeleton
  | .memberEquals .valueDefault type left right =>
    .call (.builtin .valueEquals (some type.canonical)) [left.skeleton, right.skeleton]
  | .memberEquals .referenceDefault type left right =>
    .call (.builtin .virtualEquals (some type.canonical)) [left.skeleton, right.skeleton]
  | .memberHash _ type value => .call (.builtin .hash (some type.canonical)) [value.skeleton]
  | .combineHashes left right => .call (.builtin .combine none) [left.skeleton, right.skeleton]
  | .typeHash type => .typeHash type.canonical
  | .andAlso left right => .andAlso left.skeleton right.skeleton
  | .orElse left right => .orElse left.skeleton right.skeleton
  | .not operand => .not operand.skeleton
  | .isNull operand => .isNull operand.skeleton
  | .isExactly operand type => .isExactly operand.skeleton type.canonical
  | .cast operand type => .cast operand.skeleton type.canonical
  | .referenceEquals left right => .call (.builtin .referenceEquals none) [left.skeleton, right.skeleton]
  | .concat parts => .call (.builtin .concat none) (skeletons parts)
  | .toText value _ => .call (.builtin .toText none) [value.skeleton]

def skeletons : List Expr → List ExprSkeleton
  | [] => []
  | argument :: others => argument.skeleton :: skeletons others

end

mutual

def Stmt.skeleton : Stmt → StmtSkeleton
  | .storeField target field value => .store target.skeleton field.name value.skeleton
  | .storeOut parameter value => .storeOut parameter value.skeleton
  | .callBaseConstructor .object arguments => .callBaseConstructor (Ty.canonical .object) (skeletons arguments)
  | .callBaseConstructor (.record type _) arguments => .callBaseConstructor type.canonical (skeletons arguments)
  | .when condition body => .when condition.skeleton (blockSkeleton body)
  | .exit none => .exit none
  | .exit (some value) => .exit (some value.skeleton)
  | .userBody body => .userBody body

def blockSkeleton : List Stmt → List StmtSkeleton
  | [] => []
  | stmt :: others => stmt.skeleton :: blockSkeleton others

end

def enclosed (strength least : Nat) (body : List Char) : List Char :=
  if strength < least then '(' :: (body ++ [')']) else body

def Callee.write : Callee → List Char
  | .create type => "new ".toList ++ type.toList
  | .base method => "base.".toList ++ method.toList
  | .static owner method => owner.toList ++ ("::".toList ++ method.toList)
  | .builtin operation none => operation.word.toList
  | .builtin operation (some type) => operation.word.toList ++ '<' :: (type.toList ++ ['>'])

mutual

def ExprSkeleton.write : ExprSkeleton → Nat → List Char
  | .this, _ => "this".toList
  | .parameter name, _ => name.toList
  | .bool value, _ => if value then "true".toList else "false".toList
  | .text value, _ => '"' :: (value.toList.flatMap Text.quotedChar ++ ['"'])
  | .load target name, _ => target.write atomStrength ++ '.' :: name.toList
  | .call callee arguments, _ => callee.write ++ '(' :: (writeArguments arguments ++ [')'])
  | .send receiver method arguments, _ =>
    receiver.write atomStrength ++ '.' :: (method.toList ++ '(' :: (writeArguments arguments ++ [')']))
  | .typeHash type, _ => ['t', 'y', 'p', 'e', 'h', 'a', 's', 'h', '('] ++ (type.toList ++ [')'])
  | .equal left right, least =>
    enclosed comparisonStrength least (left.write unaryStrength ++ (" == ".toList ++ right.write unaryStrength))
  | .andAlso left right, least =>
    enclosed andStrength least (left.write andStrength ++ (" && ".toList ++ right.write (andStrength + 1)))
  | .orElse left right, least =>
    enclosed orStrength least (left.write orStrength ++ (" || ".toList ++ right.write (orStrength + 1)))
  | .not operand, least => enclosed unaryStrength least ('!' :: operand.write atomStrength)
  | .isNull operand, least => enclosed comparisonStrength least (operand.write unaryStrength ++ " is null".toList)
  | .isExactly operand type, least =>
    enclosed comparisonStrength least (operand.write unaryStrength ++ (" is exactly ".toList ++ type.toList))
  | .cast operand type, least =>
    enclosed unaryStrength least ('(' :: (type.toList ++ ')' :: operand.write atomStrength))

def writeArguments : List ExprSkeleton → List Char
  | [] => []
  | argument :: others => argument.write 0 ++ writeOthers others

def writeOthers : List ExprSkeleton → List Char
  | [] => []
  | argument :: others => ", ".toList ++ (argument.write 0 ++ writeOthers others)

end

def margin (depth : Nat) : List Char :=
  List.replicate (4 * depth) ' '

mutual

def StmtSkeleton.write (depth : Nat) : StmtSkeleton → List Char
  | .store target field value => (ExprSkeleton.load target field).write 0 ++ (" = ".toList ++ value.write 0)
  | .storeOut parameter value => "out ".toList ++ (parameter.toList ++ (" = ".toList ++ value.write 0))
  | .callBaseConstructor type arguments =>
    "call base ".toList ++ (type.toList ++ ("::.ctor(".toList ++ (writeArguments arguments ++ [')'])))
  | .when condition body => "if ".toList ++ (condition.write 0 ++ ':' :: writeBlock (depth + 1) body)
  | .exit none => "return".toList
  | .exit (some value) => "return ".toList ++ value.write 0
  | .userBody body => "<user body #".toList ++ ((toString body.toNat).toList ++ ['>'])

def writeBlock (depth : Nat) : List StmtSkeleton → List Char
  | [] => []
  | stmt :: others => '\n' :: (margin depth ++ (stmt.write depth ++ writeBlock depth others))

end

theorem toList_enclose (strength least : Nat) (body : String) :
    (enclose strength least body).toList = enclosed strength least body.toList := by
  rw [enclose, enclosed]
  split
  · rw [String.toList_append, String.toList_append, List.append_assoc]
    rfl
  · rfl

mutual

theorem toList_render : ∀ (expr : Expr) (least : Nat), (expr.render least).toList = expr.skeleton.write least
  | .this, _ | .parameter _, _ | .bool true, _ | .bool false, _ => rfl
  | .text value, _ => by
    rw [Expr.render.eq_def]
    simp [Expr.skeleton, ExprSkeleton.write, Text.quoted]
  | .loadField target _, _ | .loadProperty target _ _ _, _ => by
    rw [Expr.render.eq_def]
    simp [Expr.skeleton, ExprSkeleton.write, toList_render target]
  | .create _ _ arguments, _ | .callBase _ arguments, _ | .callStatic _ arguments, _ | .concat arguments, _ => by
    rw [Expr.render.eq_def]
    simp [Expr.skeleton, ExprSkeleton.write, Callee.write, Builtin.word, toList_renderArguments arguments]
  | .callInstance receiver _ arguments, _ => by
    rw [Expr.render.eq_def]
    simp [Expr.skeleton, ExprSkeleton.write, toList_render receiver, toList_renderArguments arguments]
  | .memberEquals .bitwise _ left right, _ | .andAlso left right, _ | .orElse left right, _ => by
    rw [Expr.render.eq_def]
    simp [Expr.skeleton, ExprSkeleton.write, toList_enclose, toList_render left, toList_render right]
  | .memberEquals .valueDefault _ left right, _ | .memberEquals .referenceDefault _ left right, _
  | .combineHashes left right, _ | .referenceEquals left right, _ => by
    rw [Expr.render.eq_def]
    simp [Expr.skeleton, ExprSkeleton.write, Callee.write, Builtin.word, writeArguments, writeOthers,
      toList_render left, toList_render right]
  | .memberHash _ _ value, _ | .toText value _, _ => by
    rw [Expr.render.eq_def]
    simp [Expr.skeleton, ExprSkeleton.write, Callee.write, Builtin.word, writeArguments, writeOthers,
      toList_render value]
  | .typeHash _, _ => by
    rw [Expr.render.eq_def]
    simp [Expr.skeleton, ExprSkeleton.write]
  | .not operand, _ | .isNull operand, _ | .isExactly operand _, _ | .cast operand _, _ => by
    rw [Expr.render.eq_def]
    simp [Expr.skeleton, ExprSkeleton.write, toList_enclose, toList_render operand]

theorem toList_renderArguments : ∀ arguments : List Expr,
    (renderArguments arguments).toList = writeArguments (skeletons arguments)
  | [] => rfl
  | argument :: others => by
    simp [renderArguments, skeletons, writeArguments, toList_render argument, toList_renderOthers others]

theorem toList_renderOthers : ∀ arguments : List Expr,
    (renderOthers arguments).toList = writeOthers (skeletons arguments)
  | [] => rfl
  | argument :: others => by
    simp [renderOthers, skeletons, writeOthers, toList_render argument, toList_renderOthers others]

end

mutual

theorem toList_renderStmt (depth : Nat) : ∀ stmt : Stmt,
    (stmt.render depth).toList = margin depth ++ stmt.skeleton.write depth
  | .storeField target _ value => by
    rw [Stmt.render.eq_def, StmtSkeleton.write.eq_def]
    simp [Stmt.skeleton, ExprSkeleton.write, indent, margin, toList_render]
  | .storeOut _ value | .exit (some value) => by
    rw [Stmt.render.eq_def, StmtSkeleton.write.eq_def]
    simp [Stmt.skeleton, indent, margin, toList_render]
  | .callBaseConstructor .object arguments => by
    rw [Stmt.render.eq_def, StmtSkeleton.write.eq_def]
    simp [Stmt.skeleton, indent, margin, toList_renderArguments, Ty.canonical,
      Ty.object, Primitive.keyword]
  | .callBaseConstructor (.record _ _) arguments => by
    rw [Stmt.render.eq_def, StmtSkeleton.write.eq_def]
    simp [Stmt.skeleton, indent, margin, toList_renderArguments]
  | .when condition body => by
    rw [Stmt.render.eq_def, StmtSkeleton.write.eq_def]
    simp [Stmt.skeleton, indent, margin, toList_render,
      toList_renderBlock (depth + 1) body]
  | .exit none | .userBody _ => by
    rw [Stmt.render.eq_def, StmtSkeleton.write.eq_def]
    simp [Stmt.skeleton, indent, margin]

theorem toList_renderBlock (depth : Nat) : ∀ stmts : List Stmt,
    (renderBlock depth stmts).toList = writeBlock depth (blockSkeleton stmts)
  | [] => rfl
  | stmt :: others => by
    simp [renderBlock, blockSkeleton, writeBlock, toList_renderStmt depth stmt, toList_renderBlock depth others]

end

end RecordSynthesis.Code
