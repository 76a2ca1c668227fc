import RecordSynthesis.Code.Lowering

/-!
# Occurrences in code

A view finds something at single expressions and statements. What it finds in a whole body, at any depth, is gathered by
recursion over the code; the terms that lowering joins into one expression come out one after the other.
-/

namespace RecordSynthesis

set_option autoImplicit false

namespace Code

variable {α : Type}

mutual

def Expr.gather (view : Expr → List α) (expr : Expr) : List α :=
  view expr ++ match expr with
    | .this | .parameter _ | .bool _ | .text _ | .typeHash _ => []
    | .loadField operand _ | .loadProperty operand _ _ _ | .memberHash _ _ operand | .not operand | .isNull operand
    | .isExactly operand _ | .cast operand _ | .toText operand _ => operand.gather view
    | .create _ _ operands | .callBase _ operands | .callStatic _ operands | .concat operands =>
      Expr.gatherAll view operands
    | .callInstance receiver _ arguments => receiver.gather view ++ Expr.gatherAll view arguments
    | .memberEquals _ _ left right | .combineHashes left right | .andAlso left right | .orElse left right
    | .referenceEquals left right => left.gather view ++ right.gather view

def Expr.gatherAll (view : Expr → List α) : List Expr → List α
  | [] => []
  | expr :: others => expr.gather view ++ Expr.gatherAll view others

end

mutual

def Stmt.gather (inStmt : Stmt → List α) (inExpr : Expr → List α) (stmt : Stmt) : List α :=
  inStmt stmt ++ match stmt with
    | .storeField target _ value => target.gather inExpr ++ value.gather inExpr
    | .storeOut _ value | .exit (some value) => value.gather inExpr
    | .callBaseConstructor _ arguments => Expr.gatherAll inExpr arguments
    | .when condition body => condition.gather inExpr ++ Stmt.gatherAll inStmt inExpr body
    | .exit none | .userBody _ => []

def Stmt.gatherAll (inStmt : Stmt → List α) (inExpr : Expr → List α) : List Stmt → List α
  | [] => []
  | stmt :: others => stmt.gather inStmt inExpr ++ Stmt.gatherAll inStmt inExpr others

end

def Function.gather (function : Function) (inStmt : Stmt → List α) (inExpr : Expr → List α) : List α :=
  Stmt.gatherAll inStmt inExpr function.body

theorem Expr.gatherAll_eq (view : Expr → List α) (exprs : List Expr) :
    Expr.gatherAll view exprs = exprs.flatMap (Expr.gather view) := by
  induction exprs with
  | nil => rfl
  | cons expr others ih => rw [gatherAll, ih, List.flatMap_cons]

theorem Stmt.gatherAll_eq (inStmt : Stmt → List α) (inExpr : Expr → List α) (stmts : List Stmt) :
    Stmt.gatherAll inStmt inExpr stmts = stmts.flatMap (Stmt.gather inStmt inExpr) := by
  induction stmts with
  | nil => rfl
  | cons stmt others ih => rw [gatherAll, ih, List.flatMap_cons]

/-- Where nothing is found at the joints themselves, a chain of joined terms yields what the terms do. -/
theorem Expr.gather_foldl {β : Type} (view : Expr → List α) (join : Expr → Expr → Expr)
    (joins : ∀ left right, (join left right).gather view = left.gather view ++ right.gather view) (term : β → Expr)
    (seed : Expr) (items : List β) :
    (items.foldl (fun joined item => join joined (term item)) seed).gather view =
      seed.gather view ++ items.flatMap fun item => (term item).gather view := by
  induction items generalizing seed with
  | nil => simp
  | cons item others ih => rw [List.foldl_cons, ih, joins, List.flatMap_cons, List.append_assoc]

theorem Expr.gather_conjunction (view : Expr → List α) (truth : view (.bool true) = [])
    (joint : ∀ left right, view (.andAlso left right) = []) (terms : List Expr) :
    (MemberSet.conjunction terms).gather view = terms.flatMap (Expr.gather view) := by
  cases terms with
  | nil => simp [MemberSet.conjunction, gather, truth]
  | cons term others =>
    exact gather_foldl view .andAlso (fun left right => by simp [gather, joint]) id term others

theorem Function.gather_lowerHash (inStmt : Stmt → List α) (inExpr : Expr → List α)
    (exits : ∀ value, inStmt (.exit value) = []) (joint : ∀ left right, inExpr (.combineHashes left right) = [])
    (set : MemberSet) :
    set.lowerHash.gather inStmt inExpr = set.hashSeed.gather inExpr ++ set.state.flatMap fun state =>
      (Expr.memberHash state.equality state.member.type (.loadField .this (set.stateField state))).gather inExpr := by
  have hFold := Expr.gather_foldl inExpr .combineHashes (fun left right => by simp [Expr.gather, joint])
    (fun state : StateMember =>
      .memberHash state.equality state.member.type (.loadField .this (set.stateField state))) set.hashSeed set.state
  rw [Function.gather, MemberSet.lowerHash, Stmt.gatherAll, Stmt.gatherAll, List.append_nil, Stmt.gather, exits,
    ← hFold]
  rfl

end Code

end RecordSynthesis
