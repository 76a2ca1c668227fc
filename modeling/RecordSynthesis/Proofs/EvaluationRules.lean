import RecordSynthesis.Proofs.Evaluation

/-!
# Rules of evaluation

What a form of code does once its parts are evaluated, one rule for each form and outcome that proofs run through. A rule
asks for the runs of the parts, in order, and says what the whole run leaves.
-/

namespace RecordSynthesis

set_option autoImplicit false

namespace Code

theorem Heap.exists_reference {heap : Heap} {value : Value} {object : Object} (h : heap.object? value = some object) :
    ∃ address, value = .reference address ∧ heap[address]? = some object := by
  cases value with
  | reference address => exact ⟨address, rfl, h⟩
  | null | bool _ | int _ | text _ | token _ => cases h

theorem Run.pure_ok {α : Type} (value : α) (heap : Heap) : (pure value : Run α) heap = .ok (value, heap) :=
  rfl

theorem Run.ofOption_ok {α : Type} {failure : Failure} {value? : Option α} {value : α} (h : value? = some value)
    (heap : Heap) : Run.ofOption failure value? heap = .ok (value, heap) := by
  rw [h]
  rfl

namespace Program

section

variable {program : Program} {invoke : Function → Option Value → List Value → Run Outcome} {frame : Frame}
  {heap heap' heap'' : Heap} {expr left right : Expr} {value other : Value} {b c : Bool} {type : Ty}

theorem eval_this (h : frame.this = some value) : program.eval invoke frame .this heap = .ok (value, heap) := by
  rw [eval]
  exact Run.ofOption_ok h heap

theorem eval_parameter {name : String} (h : frame.parameters.lookup name = some value) :
    program.eval invoke frame (.parameter name) heap = .ok (value, heap) := by
  rw [eval]
  exact Run.ofOption_ok h heap

theorem eval_bool : program.eval invoke frame (.bool b) heap = .ok (.bool b, heap) := by
  rw [eval]
  rfl

theorem eval_typeHash : program.eval invoke frame (.typeHash type) heap =
    .ok (.int (program.interpretation.typeHash type), heap) := by
  rw [eval]
  rfl

theorem eval_loadField {object : Object} {field : FieldRef} (h : program.eval invoke frame expr heap = .ok (value, heap'))
    (found : heap'.object? value = some object) (read : object.read? field = some other) :
    program.eval invoke frame (.loadField expr field) heap = .ok (other, heap') := by
  obtain ⟨address, rfl, hAt⟩ := Heap.exists_reference found
  rw [eval, Run.bind_ok h]
  simp [Value.target, bind, StateT.bind, Except.bind, hAt, Run.ofOption, read]
  rfl

theorem evalAll_nil : program.evalAll invoke frame [] heap = .ok ([], heap) := by
  rw [evalAll]
  rfl

theorem evalAll_singleton (h : program.eval invoke frame expr heap = .ok (value, heap')) :
    program.evalAll invoke frame [expr] heap = .ok ([value], heap') := by
  rw [evalAll, Run.bind_ok h, Run.bind_ok evalAll_nil]
  rfl

theorem evalAll_pair (h : program.eval invoke frame left heap = .ok (value, heap'))
    (h' : program.eval invoke frame right heap' = .ok (other, heap'')) :
    program.evalAll invoke frame [left, right] heap = .ok ([value, other], heap'') := by
  rw [evalAll, Run.bind_ok h, Run.bind_ok (evalAll_singleton h')]
  rfl

theorem eval_memberEquals {strategy : EqualityStrategy} (h : program.eval invoke frame left heap = .ok (value, heap'))
    (h' : program.eval invoke frame right heap' = .ok (other, heap'')) :
    program.eval invoke frame (.memberEquals strategy type left right) heap =
      .ok (.bool (program.interpretation.equals heap'' strategy type value other), heap'') := by
  rw [eval, Run.bind_ok h, Run.bind_ok h']
  rfl

theorem eval_memberHash {strategy : EqualityStrategy} (h : program.eval invoke frame expr heap = .ok (value, heap')) :
    program.eval invoke frame (.memberHash strategy type expr) heap =
      .ok (.int (program.interpretation.hash heap' strategy type value), heap') := by
  rw [eval, Run.bind_ok h]
  rfl

theorem eval_combineHashes {m n : Int32} (h : program.eval invoke frame left heap = .ok (.int m, heap'))
    (h' : program.eval invoke frame right heap' = .ok (.int n, heap'')) :
    program.eval invoke frame (.combineHashes left right) heap =
      .ok (.int (program.interpretation.combine m n), heap'') := by
  rw [eval, Run.bind_ok h, Value.asInt, Run.bind_ok (Run.pure_ok m heap'), Run.bind_ok h', Value.asInt,
    Run.bind_ok (Run.pure_ok n heap'')]
  rfl

theorem eval_andAlso_false (h : program.eval invoke frame left heap = .ok (.bool false, heap')) :
    program.eval invoke frame (.andAlso left right) heap = .ok (.bool false, heap') := by
  rw [eval, Run.bind_ok h]
  rfl

theorem eval_andAlso_true (h : program.eval invoke frame left heap = .ok (.bool true, heap'))
    (h' : program.eval invoke frame right heap' = .ok (.bool b, heap'')) :
    program.eval invoke frame (.andAlso left right) heap = .ok (.bool b, heap'') := by
  rw [eval, Run.bind_ok h, Value.asBool, Run.bind_ok (Run.pure_ok true heap')]
  simp only [if_true]
  rw [Run.bind_ok h']
  rfl

theorem eval_orElse_true (h : program.eval invoke frame left heap = .ok (.bool true, heap')) :
    program.eval invoke frame (.orElse left right) heap = .ok (.bool true, heap') := by
  rw [eval, Run.bind_ok h]
  rfl

theorem eval_orElse_false (h : program.eval invoke frame left heap = .ok (.bool false, heap'))
    (h' : program.eval invoke frame right heap' = .ok (.bool b, heap'')) :
    program.eval invoke frame (.orElse left right) heap = .ok (.bool b, heap'') := by
  rw [eval, Run.bind_ok h, Value.asBool, Run.bind_ok (Run.pure_ok false heap')]
  simp only [Bool.false_eq_true, if_false]
  rw [Run.bind_ok h']
  rfl

theorem eval_not (h : program.eval invoke frame expr heap = .ok (.bool b, heap')) :
    program.eval invoke frame (.not expr) heap = .ok (.bool !b, heap') := by
  rw [eval, Run.bind_ok h]
  rfl

theorem eval_isNull_null (h : program.eval invoke frame expr heap = .ok (.null, heap')) :
    program.eval invoke frame (.isNull expr) heap = .ok (.bool true, heap') := by
  rw [eval, Run.bind_ok h]
  rfl

theorem eval_isNull_of_ne (h : program.eval invoke frame expr heap = .ok (value, heap')) (notNull : value ≠ .null) :
    program.eval invoke frame (.isNull expr) heap = .ok (.bool false, heap') := by
  rw [eval, Run.bind_ok h, decide_eq_false notNull]
  rfl

theorem eval_referenceEquals (h : program.eval invoke frame left heap = .ok (value, heap'))
    (h' : program.eval invoke frame right heap' = .ok (other, heap'')) :
    program.eval invoke frame (.referenceEquals left right) heap = .ok (.bool (value = other), heap'') := by
  rw [eval, Run.bind_ok h, Run.bind_ok h']
  rfl

theorem eval_isExactly (h : program.eval invoke frame expr heap = .ok (value, heap')) :
    program.eval invoke frame (.isExactly expr type) heap =
      .ok (.bool ((heap'.object? value).any fun object => object.type.same type), heap') := by
  rw [eval, Run.bind_ok h]
  rfl

theorem eval_cast (h : program.eval invoke frame expr heap = .ok (value, heap'))
    (fits : program.fits heap' value type = true) :
    program.eval invoke frame (.cast expr type) heap = .ok (value, heap') := by
  have hGet : (get : Run Heap) heap' = .ok (heap', heap') := rfl
  rw [eval, Run.bind_ok h, Run.bind_ok hGet, if_pos fits, Run.pure_ok]

theorem callValue_ok {function : Function} {this : Option Value} {arguments : List Value}
    (h : invoke function this arguments heap = .ok (.returned value, heap')) :
    callValue invoke (some function) this arguments heap = .ok (value, heap') := by
  rw [callValue, Run.bind_ok (Run.ofOption_ok rfl heap), Run.bind_ok h]
  rfl

theorem send_ok {receiver : Value} {object : Object} {set : MemberSet} {method : MethodRef} {arguments : List Value}
    {function : Function} (found : heap.object? receiver = some object)
    (runtime : program.table.owner? object.type = some set)
    (dispatch : program.table.dispatch? set method = some function)
    (h : invoke function (some receiver) arguments heap = .ok (.returned value, heap')) :
    program.send invoke receiver method arguments heap = .ok (value, heap') := by
  have hRuntime : program.runtime? heap receiver = some set := by
    rw [runtime?, found, Option.bind_some, runtime]
  obtain ⟨address, rfl, -⟩ := Heap.exists_reference found
  rw [send, Run.bind_ok rfl, Run.bind_ok (Run.ofOption_ok hRuntime heap), dispatch]
  · exact callValue_ok h
  · nofun

theorem eval_callInstance {receiver : Expr} {method : MethodRef} {arguments : List Expr} {values : List Value}
    (h : program.eval invoke frame receiver heap = .ok (value, heap'))
    (h' : program.evalAll invoke frame arguments heap' = .ok (values, heap'')) :
    program.eval invoke frame (.callInstance receiver method arguments) heap =
      program.send invoke value method values heap'' := by
  rw [eval, Run.bind_ok h, Run.bind_ok h']

theorem eval_callBase {method : MethodRef} {arguments : List Expr} {values : List Value}
    (this : frame.this = some value) (h : program.evalAll invoke frame arguments heap = .ok (values, heap')) :
    program.eval invoke frame (.callBase method arguments) heap =
      callValue invoke (program.table.own? false method) (some value) values heap' := by
  rw [eval, Run.bind_ok (Run.ofOption_ok this heap), Run.bind_ok h]

theorem eval_callStatic {method : MethodRef} {arguments : List Expr} {values : List Value}
    (h : program.evalAll invoke frame arguments heap = .ok (values, heap')) :
    program.eval invoke frame (.callStatic method arguments) heap =
      callValue invoke (program.table.own? true method) none values heap' := by
  rw [eval, Run.bind_ok h]

theorem construct_ok {set : MemberSet} {types : List Ty} {function : Function} {this : Option Value}
    {arguments : List Value} {outcome : Outcome} (owner : program.table.owner? type = some set)
    (code : set.constructor? types = some function)
    (h : invoke function this arguments heap = .ok (outcome, heap')) :
    program.construct invoke this type types arguments heap = .ok ((), heap') := by
  rw [construct, Run.bind_ok (Run.ofOption_ok owner heap), Run.bind_ok (Run.ofOption_ok code heap), Run.bind_ok h]
  rfl

/-- A new instance stands at the end of the heap, without fields, until its constructor has run. -/
theorem eval_create {types : List Ty} {arguments : List Expr} {values : List Value}
    (h : program.evalAll invoke frame arguments heap = .ok (values, heap'))
    (h' : program.construct invoke (some (.reference heap'.length)) type types values (heap' ++ [{ type := type }]) =
      .ok ((), heap'')) :
    program.eval invoke frame (.create type types arguments) heap = .ok (.reference heap'.length, heap'') := by
  rw [eval, Run.bind_ok h, Run.bind_ok rfl, Run.bind_ok h']
  rfl

/-- A function runs as its body does, with room for one call more. -/
theorem forall_invoke {function : Function} {this : Option Value} {arguments : List Value} {room : Nat}
    {result : Except Failure (Outcome × Heap)}
    (h : ∀ depth ≥ room, program.execAll (program.invoke depth) (function.frame this arguments) function.body heap =
      result) : ∀ depth > room, program.invoke depth function this arguments heap = result := by
  intro depth hDepth
  cases depth with
  | zero => exact absurd hDepth (Nat.not_lt_zero room)
  | succ depth => exact h depth (Nat.le_of_lt_succ hDepth)

theorem exec_storeField {address : Nat} {object : Object} {field : FieldRef}
    (h : program.eval invoke frame left heap = .ok (.reference address, heap')) (found : heap'[address]? = some object)
    (h' : program.eval invoke frame right heap' = .ok (value, heap'')) :
    program.exec invoke frame (.storeField left field right) heap =
      .ok ({}, heap''.modify address fun object => object.write field value) := by
  have hTarget : Value.target (.reference address) heap' = .ok ((address, object), heap') := by
    simp only [Value.target, found]
  rw [exec, Run.bind_ok h, Run.bind_ok hTarget]
  dsimp only
  rw [Run.bind_ok h']
  rfl

theorem exec_callBaseConstructor_object {arguments : List Expr} {values : List Value}
    (h : program.evalAll invoke frame arguments heap = .ok (values, heap')) :
    program.exec invoke frame (.callBaseConstructor .object arguments) heap = .ok ({}, heap') := by
  rw [exec, Run.bind_ok h]
  rfl

theorem exec_callBaseConstructor_record {types : List Ty} {arguments : List Expr} {values : List Value}
    (h : program.evalAll invoke frame arguments heap = .ok (values, heap'))
    (h' : program.construct invoke frame.this type types values heap' = .ok ((), heap'')) :
    program.exec invoke frame (.callBaseConstructor (.record type types) arguments) heap = .ok ({}, heap'') := by
  rw [exec, Run.bind_ok h]
  dsimp only
  rw [Run.bind_ok h']
  rfl

theorem execAll_next {stmt : Stmt} {others : List Stmt} {outcome : Outcome}
    (h : program.exec invoke frame stmt heap = .ok ({}, heap'))
    (h' : program.execAll invoke frame others heap' = .ok (outcome, heap'')) :
    program.execAll invoke frame (stmt :: others) heap = .ok (outcome, heap'') := by
  rw [execAll, Run.bind_ok h]
  simp only [Option.isSome_none, Bool.false_eq_true, if_false]
  rw [Run.bind_ok h', Run.pure_ok]
  simp

theorem execAll_stop {stmt : Stmt} {others : List Stmt}
    (h : program.exec invoke frame stmt heap = .ok (.returned value, heap')) :
    program.execAll invoke frame (stmt :: others) heap = .ok (.returned value, heap') := by
  rw [execAll, Run.bind_ok h]
  rfl

theorem execAll_exit {others : List Stmt} (h : program.eval invoke frame expr heap = .ok (value, heap')) :
    program.execAll invoke frame (.exit (some expr) :: others) heap = .ok (.returned value, heap') := by
  refine execAll_stop ?_
  rw [exec, Run.bind_ok h]
  rfl

theorem exec_when {body : List Stmt} {outcome : Outcome}
    (h : program.eval invoke frame expr heap = .ok (.bool true, heap'))
    (h' : program.execAll invoke frame body heap' = .ok (outcome, heap'')) :
    program.exec invoke frame (.when expr body) heap = .ok (outcome, heap'') := by
  rw [exec, Run.bind_ok h, Value.asBool, Run.bind_ok (Run.pure_ok true heap')]
  exact h'

theorem exec_when_not {body : List Stmt} (h : program.eval invoke frame expr heap = .ok (.bool false, heap')) :
    program.exec invoke frame (.when expr body) heap = .ok ({}, heap') := by
  rw [exec, Run.bind_ok h]
  rfl

end

end Program

end Code

end RecordSynthesis
