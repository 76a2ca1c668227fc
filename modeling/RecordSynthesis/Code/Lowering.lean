import RecordSynthesis.Code.Basic

/-!
# Lowering

The code of every synthesized member. Synthesis has decided which members exist, what they chain to and how they
compare; lowering spells the decisions out.
-/

namespace RecordSynthesis

set_option autoImplicit false

open Code

/-- A member was asked for that the record does not get by synthesis. -/
structure LowerError where
  record : String
  member : SynthesizedMember
  deriving Repr, Inhabited

def LowerError.message (error : LowerError) : String :=
  "record `" ++ error.record ++ "` has no synthesized " ++ error.member.description

namespace ConstructorChain

def toStmts : ConstructorChain → List Stmt
  | absent => []
  | object => [.callBaseConstructor .object []]
  | base type types arguments => [.callBaseConstructor (.record type types) (arguments.map .parameter)]

end ConstructorChain

def MemberRead.load (read : MemberRead) (target : Expr) : Expr :=
  match read.access with
  | .property => .loadProperty target read.owner read.name read.type
  | .field => .loadField target ⟨read.owner, read.name, read.type⟩

def typedEqualsRef (owner : Ty) : MethodRef :=
  ⟨owner, "Equals", [owner], some Ty.bool⟩

namespace MemberSet

variable (set : MemberSet)

def field (name : String) (type : Ty) : FieldRef :=
  ⟨set.selfType, name, type⟩

def stateField (state : StateMember) : FieldRef :=
  set.field state.member.storage state.member.type

/-! ## Constructors -/

def lowerPrimaryConstructor (primary : PrimaryConstructor) : Function :=
  { owner := set.selfType, name := ".ctor", kind := .constructor
    parameters := primary.parameters.map fun p => { name := p.name, type := p.type, defaultValue := p.defaultValue }
    body := primary.stores.map (fun store =>
        .storeField .this (set.field store.field store.type) (.parameter store.parameter))
      ++ primary.chain.toStmts }

/-- The type of the one parameter of an adopted copy constructor. -/
def adoptedParameterType (position : Nat) : Ty :=
  match set.userMembers[position]? with
  | some (.constructor c) =>
    match c.parameters with
    | p :: _ => p.type
    | [] => set.selfType
  | _ => set.selfType

def lowerCopyConstructor : CopyConstructor → Function
  | .synthesized chain =>
    { owner := set.selfType, name := ".ctor", kind := .constructor
      parameters := [{ name := copyParameterName, type := set.selfType }]
      body := chain.toStmts ++ set.state.map fun state =>
        .storeField .this (set.stateField state) (.loadField (.parameter copyParameterName) (set.stateField state)) }
  | .adopted position parameter body chain =>
    { owner := set.selfType, name := ".ctor", kind := .constructor
      parameters := [{ name := parameter, type := set.adoptedParameterType position }]
      body := chain.toStmts ++ [.userBody body] }

/-! ## Accessors and clone -/

def lowerGetter (property : SynthesizedProperty) : Function :=
  { owner := set.selfType, name := "get_" ++ property.name, kind := .getter, returnType := some property.type
    body := [.exit (some (.loadField .this (set.field property.field property.type)))] }

def lowerInitAccessor (property : SynthesizedProperty) : Function :=
  { owner := set.selfType, name := "set_" ++ property.name, kind := .initAccessor
    parameters := [{ name := "value", type := property.type }]
    body := [.storeField .this (set.field property.field property.type) (.parameter "value")] }

def lowerClone : Function :=
  { owner := set.selfType, name := set.clone.name, kind := .method, returnType := some set.clone.returnType
    isOverride := set.clone.overridden.isSome
    body := [.exit (some
      (if set.isValueType then .this else .create set.selfType [set.selfType] [.this]))] }

/-! ## Equality -/

/-- The comparisons of typed equality: of the base as a whole, then of each piece of own state. -/
def equalityTerms : List Expr :=
  (match set.base with
    | some base =>
      [.callBase (typedEqualsRef base.selfType) [.cast (.parameter "other") base.selfType]]
    | none => [])
  ++ set.state.map fun state =>
    .memberEquals state.equality state.member.type (.loadField .this (set.stateField state))
      (.loadField (.parameter "other") (set.stateField state))

/-- All terms joined from the left; without any, true. -/
def conjunction : List Expr → Expr
  | [] => .bool true
  | term :: others => others.foldl .andAlso term

def lowerTypedEquals : Function :=
  { owner := set.selfType, name := "Equals", kind := .method
    parameters := [{ name := "other", type := set.selfType }], returnType := some Ty.bool
    body := (if set.isValueType then [] else
        [.when (.isNull (.parameter "other")) [.exit (some (.bool false))]])
      ++ [.exit (some (conjunction set.equalityTerms))] }

def lowerObjectEquals : Function :=
  { owner := set.selfType, name := "Equals", kind := .method
    parameters := [{ name := "obj", type := Ty.object }], returnType := some Ty.bool, isOverride := true
    body := [.exit (some (.andAlso (.isExactly (.parameter "obj") set.selfType)
      (.callInstance .this (typedEqualsRef set.selfType) [.cast (.parameter "obj") set.selfType])))] }

/-- What the hashes of the own state are combined into: the hash of the base, or of the type. -/
def hashSeed : Expr :=
  match set.base with
  | some base => .callBase ⟨base.selfType, "GetHashCode", [], some Ty.int⟩ []
  | none => .typeHash set.selfType

def lowerHash : Function :=
  { owner := set.selfType, name := "GetHashCode", kind := .method, returnType := some Ty.int, isOverride := true
    body := [.exit (some (set.state.foldl
      (fun hash state => .combineHashes hash
        (.memberHash state.equality state.member.type (.loadField .this (set.stateField state))))
      set.hashSeed))] }

/-! ## Operators -/

def lowerOperator (name : String) (body : Expr) : Function :=
  { owner := set.selfType, name, kind := .operator
    parameters := [{ name := "left", type := set.selfType }, { name := "right", type := set.selfType }]
    returnType := some Ty.bool, isStatic := true, body := [.exit (some body)] }

def lowerEqualityOperator : Function :=
  let equals : Expr := .callInstance (.parameter "left") (typedEqualsRef set.selfType) [.parameter "right"]
  set.lowerOperator "op_Equality"
    (if set.isValueType then equals
    else .orElse (.referenceEquals (.parameter "left") (.parameter "right"))
      (.andAlso (.not (.isNull (.parameter "left"))) equals))

def lowerInequalityOperator : Function :=
  set.lowerOperator "op_Inequality"
    (.not (.callStatic ⟨set.selfType, "op_Equality", [set.selfType, set.selfType], some Ty.bool⟩
      [.parameter "left", .parameter "right"]))

/-! ## Deconstruction and text -/

def lowerDeconstruct : Function :=
  { owner := set.selfType, name := "Deconstruct", kind := .method
    parameters := set.positional.map fun read => { name := read.name, type := read.type, mode := .byOut }
    body := set.positional.map fun read => .storeOut read.name (read.load .this) }

/-- One printed member: the text that leads to its value, and the value. -/
def printedMember (lead : String) (read : MemberRead) : List Expr :=
  [.text (lead ++ read.name ++ " = "), .toText (read.load .this) read.type]

def printedParts : List Expr :=
  match set.printable with
  | [] => [.text (set.recordName ++ " \x7b \x7d")]
  | read :: others =>
    printedMember (set.recordName ++ " \x7b ") read ++ others.flatMap (printedMember ", ") ++ [.text " \x7d"]

def lowerTextForm : Function :=
  { owner := set.selfType, name := "ToString", kind := .method, returnType := some Ty.string, isOverride := true
    body := [.exit (some (.concat set.printedParts))] }

/-! ## All members -/

/-- The code of a member, if the record gets that member by synthesis. -/
def lower? : SynthesizedMember → Option Function
  | .primaryConstructor => set.primaryConstructor.map set.lowerPrimaryConstructor
  | .copyConstructor => set.copyConstructor.map set.lowerCopyConstructor
  | .getter property => set.properties[property]?.map set.lowerGetter
  | .initAccessor property => set.properties[property]?.map set.lowerInitAccessor
  | .clone => some set.lowerClone
  | .typedEquals => if set.equality.typedEquals = .synthesized then some set.lowerTypedEquals else none
  | .objectEquals => if set.equality.objectEquals = .synthesized then some set.lowerObjectEquals else none
  | .hash => if set.equality.hash = .synthesized then some set.lowerHash else none
  | .deconstruct => if set.deconstruct = some .synthesized then some set.lowerDeconstruct else none
  | .equalityOperator => if set.operators then some set.lowerEqualityOperator else none
  | .inequalityOperator => if set.operators then some set.lowerInequalityOperator else none
  | .textForm => if set.textForm = some .synthesized then some set.lowerTextForm else none

def lower (member : SynthesizedMember) : Except LowerError Function :=
  match set.lower? member with
  | some function => .ok function
  | none => .error ⟨set.recordName, member⟩

def lowerAll : Except LowerError Module :=
  (set.synthesizedMembers.mapM set.lower).map fun functions => ⟨set.recordName, functions⟩

end MemberSet

end RecordSynthesis
