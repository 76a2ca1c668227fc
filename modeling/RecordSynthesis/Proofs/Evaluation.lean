import RecordSynthesis.Code.Lowering
import RecordSynthesis.Proofs.Inheritance

/-!
# Evaluation

Code runs over a heap of instances, whose fields go by the record that owns them and their name. The comparison and the
hashes of member values are not code of a record, so they are given from outside, as is the hash that identifies a type.
A run that meets code which is not lowered fails, and so does one whose calls nest deeper than it is allowed to go; the
failures that say that the code itself is wrong are told apart from these two.
-/

namespace RecordSynthesis

set_option autoImplicit false

namespace Code

/-- What is no instance and neither a truth value, a whole number nor a text is known by a token. -/
inductive Value
  | null
  | bool (value : Bool)
  | int (value : Int32)
  | text (value : String)
  | reference (address : Nat)
  | token (token : Nat)
  deriving DecidableEq, Repr, Inhabited

def FieldRef.names (field other : FieldRef) : Bool :=
  field.owner.same other.owner && field.name = other.name

structure Object where
  type : Ty
  fields : List (FieldRef × Value) := []
  deriving Repr, Inhabited

def Object.read? (object : Object) (field : FieldRef) : Option Value :=
  (object.fields.find? fun entry => entry.1.names field).map (·.2)

def Object.write (object : Object) (field : FieldRef) (value : Value) : Object :=
  { object with fields := (field, value) :: object.fields }

abbrev Heap := List Object

def Heap.object? (heap : Heap) : Value → Option Object
  | .reference address => heap[address]?
  | _ => none

inductive Failure
  /-- A field of null is loaded or stored, or a method of null is called. -/
  | nullTarget
  | invalidCast
  /-- A name that means nothing here, or a value of the wrong sort. -/
  | malformed
  /-- Code that is not lowered: of a declared member, or of a record elsewhere. -/
  | elsewhere
  | tooDeep
  deriving DecidableEq, Repr, Inhabited

abbrev Run := StateT Heap (Except Failure)

namespace Run

def fail {α : Type} (failure : Failure) : Run α :=
  fun _ => .error failure

def ofOption {α : Type} (failure : Failure) : Option α → Run α
  | some value => pure value
  | none => fail failure

theorem bind_ok {α β : Type} {run : Run α} {next : α → Run β} {heap heap' : Heap} {value : α}
    (h : run heap = .ok (value, heap')) : (run >>= next) heap = next value heap' := by
  simp [bind, StateT.bind, Except.bind, h]

end Run

namespace Value

def asBool : Value → Run Bool
  | .bool value => pure value
  | _ => Run.fail .malformed

def asInt : Value → Run Int32
  | .int value => pure value
  | _ => Run.fail .malformed

def asText : Value → Run String
  | .text value => pure value
  | _ => Run.fail .malformed

def target (value : Value) : Run (Nat × Object) :=
  match value with
  | .null => Run.fail .nullTarget
  | .reference address => fun heap =>
    match heap[address]? with
    | some object => .ok ((address, object), heap)
    | none => .error .malformed
  | _ => Run.fail .malformed

end Value

/-- What a body leaves behind: the values that it hands out, and what it returns if it does not run off its end. -/
structure Outcome where
  outputs : List (String × Value) := []
  result : Option (Option Value) := none
  deriving Repr, Inhabited

def Outcome.returned (value : Value) : Outcome :=
  { result := some (some value) }

def Outcome.value (outcome : Outcome) : Run Value :=
  Run.ofOption .malformed outcome.result.join

structure Frame where
  this : Option Value
  parameters : List (String × Value)

def Function.types (function : Function) : List Ty :=
  function.parameters.map (·.type)

def Function.frame (function : Function) (this : Option Value) (arguments : List Value) : Frame :=
  ⟨this, (function.parameters.map (·.name)).zip arguments⟩

end Code

open Code

namespace MemberSet

def functions (set : MemberSet) : List Function :=
  set.synthesizedMembers.filterMap set.lower?

def constructor? (set : MemberSet) (types : List Ty) : Option Function :=
  set.functions.find? fun function => function.kind = .constructor && Ty.sameAll function.types types

def getter? (set : MemberSet) (property : String) : Option Function :=
  set.functions.find? fun function => function.kind = .getter && function.name = "get_" ++ property

def method? (set : MemberSet) (isStatic : Bool) (method : MethodRef) : Option Function :=
  set.functions.find? fun function =>
    (function.kind = .method || function.kind = .operator) && function.isStatic = isStatic &&
      function.name = method.name && Ty.sameAll function.types method.types

/-- The methods by which a record overrides one of a record above it. A declared method overrides only where it takes the
place of one of these. -/
def overriding (set : MemberSet) : List (String × List Ty) :=
  (if set.clone.overridden.isSome then [(set.clone.name, [])] else [])
    ++ [("Equals", [Ty.object]), ("GetHashCode", [])]
    ++ (if set.textForm.isSome then [("ToString", [])] else [])

def overrides (set : MemberSet) (method : MethodRef) : Bool :=
  set.overriding.any fun signature => signature.1 = method.name && Ty.sameAll signature.2 method.types

end MemberSet

namespace RecordTable

def isUnder (table : RecordTable) (set : MemberSet) (type : Ty) : Bool :=
  (table.levels set).any fun level => level.selfType.same type

def own? (table : RecordTable) (isStatic : Bool) (method : MethodRef) : Option Function :=
  (table.owner? method.owner).bind fun set => set.method? isStatic method

/-- The code that a virtual call runs on an instance of a record: the override that is nearest to it, between the record
and the one that the method belongs to, else the method itself. -/
def dispatch? (table : RecordTable) (runtime : MemberSet) (method : MethodRef) : Option Function :=
  if table.isUnder runtime method.owner then
    let below := (table.levels runtime).reverse.takeWhile fun level => !level.selfType.same method.owner
    match below.find? fun level => level.overrides method with
    | some level => level.method? false method
    | none => table.own? false method
  else none

end RecordTable

namespace Code

/-- What evaluation takes as given: how member values compare and hash, how hashes combine, the hash of a type, what
texts show of values, and the types of the values that are no instances. -/
structure Interpretation where
  equals : Heap → EqualityStrategy → Ty → Value → Value → Bool
  hash : Heap → EqualityStrategy → Ty → Value → Int32
  combine : Int32 → Int32 → Int32
  typeHash : Ty → Int32
  text : Heap → Ty → Value → String
  admits : Ty → Value → Bool

structure Program where
  table : RecordTable
  interpretation : Interpretation

namespace Program

variable (program : Program)

def runtime? (heap : Heap) (value : Value) : Option MemberSet :=
  (heap.object? value).bind fun object => program.table.owner? object.type

def fits (heap : Heap) (value : Value) (type : Ty) : Bool :=
  match value with
  | .null => !type.isValueType
  | .reference _ =>
    type.same Ty.object || ((heap.object? value).any fun object => object.type.same type)
      || (program.runtime? heap value).any fun set => program.table.isUnder set type
  | _ => type.same Ty.object || program.interpretation.admits type value

section

variable (invoke : Function → Option Value → List Value → Run Outcome)

def callValue (function? : Option Function) (this : Option Value) (arguments : List Value) : Run Value := do
  let function ← Run.ofOption .elsewhere function?
  let outcome ← invoke function this arguments
  outcome.value

def send (receiver : Value) (method : MethodRef) (arguments : List Value) : Run Value := do
  match receiver with
  | .null => Run.fail .nullTarget
  | _ =>
    let set ← Run.ofOption .elsewhere (program.runtime? (← get) receiver)
    callValue invoke (program.table.dispatch? set method) (some receiver) arguments

def readProperty (receiver : Value) (owner : Ty) (name : String) : Run Value := do
  let (_, object) ← receiver.target
  let set ← Run.ofOption .elsewhere (program.table.owner? owner)
  match set.getter? name with
  | some getter => callValue invoke (some getter) (some receiver) []
  | none => Run.ofOption .elsewhere (object.read? (set.field (backingFieldName name) Ty.object))

def construct (this : Option Value) (type : Ty) (types : List Ty) (arguments : List Value) : Run Unit := do
  let set ← Run.ofOption .elsewhere (program.table.owner? type)
  let function ← Run.ofOption .elsewhere (set.constructor? types)
  let _ ← invoke function this arguments

variable (frame : Frame)

mutual

@[simp] def eval : Expr → Run Value
  | .this => Run.ofOption .malformed frame.this
  | .parameter name => Run.ofOption .malformed (frame.parameters.lookup name)
  | .bool value => pure (.bool value)
  | .text value => pure (.text value)
  | .loadField target field => do
    let (_, object) ← (← eval target).target
    Run.ofOption .malformed (object.read? field)
  | .loadProperty target owner name _ => do
    program.readProperty invoke (← eval target) owner name
  | .create type types arguments => do
    let arguments ← evalAll arguments
    let made : Value ← modifyGet fun heap => (.reference heap.length, heap ++ [{ type := type }])
    program.construct invoke (some made) type types arguments
    return made
  | .callInstance receiver method arguments => do
    let receiver ← eval receiver
    program.send invoke receiver method (← evalAll arguments)
  | .callBase method arguments => do
    let receiver ← Run.ofOption .malformed frame.this
    callValue invoke (program.table.own? false method) (some receiver) (← evalAll arguments)
  | .callStatic method arguments => do
    callValue invoke (program.table.own? true method) none (← evalAll arguments)
  | .memberEquals strategy type left right => do
    let left ← eval left
    let right ← eval right
    return .bool (program.interpretation.equals (← get) strategy type left right)
  | .memberHash strategy type value => do
    let value ← eval value
    return .int (program.interpretation.hash (← get) strategy type value)
  | .combineHashes left right => do
    let left ← (← eval left).asInt
    let right ← (← eval right).asInt
    return .int (program.interpretation.combine left right)
  | .typeHash type => pure (.int (program.interpretation.typeHash type))
  | .andAlso left right => do
    if ← (← eval left).asBool then return .bool (← (← eval right).asBool) else return .bool false
  | .orElse left right => do
    if ← (← eval left).asBool then return .bool true else return .bool (← (← eval right).asBool)
  | .not operand => do
    return .bool !(← (← eval operand).asBool)
  | .isNull operand => do
    return .bool ((← eval operand) = .null)
  | .isExactly operand type => do
    let value ← eval operand
    return .bool (((← get).object? value).any fun object => object.type.same type)
  | .cast operand type => do
    let value ← eval operand
    if program.fits (← get) value type then return value else Run.fail .invalidCast
  | .referenceEquals left right => do
    let left ← eval left
    let right ← eval right
    return .bool (left = right)
  | .concat parts => do
    let texts ← (← evalAll parts).mapM Value.asText
    return .text (String.join texts)
  | .toText value type => do
    let value ← eval value
    return .text (program.interpretation.text (← get) type value)

@[simp] def evalAll : List Expr → Run (List Value)
  | [] => pure []
  | expr :: others => do
    let value ← eval expr
    return value :: (← evalAll others)

end

mutual

@[simp] def exec : Stmt → Run Outcome
  | .storeField target field value => do
    let (address, _) ← (← program.eval invoke frame target).target
    let value ← program.eval invoke frame value
    modify fun heap => heap.modify address fun object => object.write field value
    return {}
  | .storeOut parameter value => do
    return { outputs := [(parameter, ← program.eval invoke frame value)] }
  | .callBaseConstructor constructor arguments => do
    let arguments ← program.evalAll invoke frame arguments
    match constructor with
    | .object => return {}
    | .record type types =>
      program.construct invoke frame.this type types arguments
      return {}
  | .when condition body => do
    if ← (← program.eval invoke frame condition).asBool then execAll body else return {}
  | .exit none => return { result := some none }
  | .exit (some value) => do
    return .returned (← program.eval invoke frame value)
  | .userBody _ => Run.fail .elsewhere

@[simp] def execAll : List Stmt → Run Outcome
  | [] => return {}
  | stmt :: others => do
    let first ← exec stmt
    if first.result.isSome then return first
    else
      let rest ← execAll others
      return { rest with outputs := first.outputs ++ rest.outputs }

end

end

/-- Runs a function, with calls nested to a depth at most. -/
def invoke : Nat → Function → Option Value → List Value → Run Outcome
  | 0, _, _, _ => Run.fail .tooDeep
  | depth + 1, function, this, arguments =>
    program.execAll (invoke depth) (function.frame this arguments) function.body

/-- A function returns a value and leaves a heap, whenever calls may nest deep enough. -/
def Returns (function : Function) (this : Option Value) (arguments : List Value) (heap : Heap) (value : Value)
    (heap' : Heap) : Prop :=
  ∃ room, ∀ depth ≥ room, program.invoke depth function this arguments heap = .ok (.returned value, heap')

/-- A virtual call answers with a value and leaves a heap, whenever calls may nest deep enough. -/
def Answers (receiver : Value) (method : MethodRef) (arguments : List Value) (heap : Heap) (value : Value)
    (heap' : Heap) : Prop :=
  ∃ room, ∀ depth ≥ room, program.send (program.invoke depth) receiver method arguments heap = .ok (value, heap')

variable {program}

theorem Returns.unique {function : Function} {this : Option Value} {arguments : List Value} {heap : Heap}
    {value other : Value} {heap' heap'' : Heap} (h : program.Returns function this arguments heap value heap')
    (h' : program.Returns function this arguments heap other heap'') : value = other ∧ heap' = heap'' := by
  obtain ⟨room, hRoom⟩ := h
  obtain ⟨room', hRoom'⟩ := h'
  have hSame := (hRoom _ (Nat.le_max_left room room')).symm.trans (hRoom' _ (Nat.le_max_right room room'))
  simpa [Outcome.returned] using hSame

theorem Answers.unique {receiver : Value} {method : MethodRef} {arguments : List Value} {heap : Heap}
    {value other : Value} {heap' heap'' : Heap} (h : program.Answers receiver method arguments heap value heap')
    (h' : program.Answers receiver method arguments heap other heap'') : value = other ∧ heap' = heap'' := by
  obtain ⟨room, hRoom⟩ := h
  obtain ⟨room', hRoom'⟩ := h'
  have hSame := (hRoom _ (Nat.le_max_left room room')).symm.trans (hRoom' _ (Nat.le_max_right room room'))
  simpa using hSame

end Program

end Code

end RecordSynthesis
