import RecordSynthesis.Members.Synthesis

/-!
# Synthesis of a compilation unit

Records are synthesized base first, each once, by its first declaration. A record on an inheritance cycle is at fault; a
fault in one record does not stop the others.
-/

namespace RecordSynthesis

set_option autoImplicit false

open Decl (CompilationUnit Record)

/-! ## Record tables -/

/-- Member sets in the order in which they were finished. -/
structure RecordTable where
  sets : List MemberSet := []
  deriving Repr, Inhabited

namespace RecordTable

/-- The set that was entered last under a name. -/
def get? (table : RecordTable) (name : String) : Option MemberSet :=
  table.sets.reverse.find? fun set => set.recordName = name

def insert (table : RecordTable) (set : MemberSet) : RecordTable :=
  ⟨table.sets ++ [set]⟩

def size (table : RecordTable) : Nat :=
  table.sets.length

end RecordTable

/-- The member sets, diagnostics and faults of a unit, each in the order in which they were found. -/
structure UnitResult where
  table : RecordTable := {}
  diagnostics : List Diagnostic := []
  faults : List Fault := []
  deriving Repr, Inhabited

def UnitResult.hasErrors (result : UnitResult) : Bool :=
  result.diagnostics.any Diagnostic.isError || !result.faults.isEmpty

namespace CheckUnit

/-! ## The order of synthesis -/

/-- The names of the unit, each at its first declaration. -/
def names (unit : CompilationUnit) : List String :=
  unit.records.foldl (fun found record => if found.contains record.name then found else found ++ [record.name]) []

/-- The names declared again, once for every further declaration. -/
def repeated (unit : CompilationUnit) : List String :=
  (unit.records.foldl
    (fun (found, again) record =>
      if found.contains record.name then (found, again ++ [record.name]) else (found ++ [record.name], again))
    (([], []) : List String × List String)).2

def baseOf? (unit : CompilationUnit) (name : String) : Option String :=
  (unit.find? name).bind (·.base)

/-- Climbs from a record to its base as long as that is declared and neither finished nor already on the path. The path
comes out with the record reached last in front. -/
def climb (unit : CompilationUnit) (finished : List String) : Nat → List String → String → List String
  | 0, path, name => name :: path
  | fuel + 1, path, name =>
    match baseOf? unit name with
    | none => name :: path
    | some base =>
      if (name :: path).contains base || finished.contains base || (unit.find? base).isNone then name :: path
      else climb unit finished fuel (name :: path) base

/-- The order in which records are finished: each after the base that it waits for. -/
def order (unit : CompilationUnit) : List String :=
  (names unit).foldl
    (fun finished name =>
      if finished.contains name then finished
      else finished ++ climb unit finished unit.records.length [] name)
    []

/-- The ancestors of a record, nearest first, along as many base links as the unit has records. -/
def ancestors (unit : CompilationUnit) : Nat → String → List String
  | 0, _ => []
  | fuel + 1, name =>
    match baseOf? unit name with
    | none => []
    | some base => base :: ancestors unit fuel base

/-- Whether the base links lead from a record back to it. -/
def isCyclic (unit : CompilationUnit) (name : String) : Bool :=
  (ancestors unit unit.records.length name).contains name

/-! ## Checking -/

def finish (unit : CompilationUnit) (options : SynthesisOptions) (result : UnitResult) (name : String) : UnitResult :=
  match unit.find? name with
  | none => result
  | some record =>
    if isCyclic unit name then { result with faults := result.faults ++ [.inheritanceCycle name] }
    else
      let base := record.base.bind result.table.get?
      let synthesis := record.synthesize record.effectiveMembers base options
      let diagnostics := result.diagnostics ++ synthesis.diagnostics
      match synthesis.outcome with
      | .ok set => { result with table := result.table.insert set, diagnostics }
      | .error fault => { result with diagnostics, faults := result.faults ++ [fault] }

end CheckUnit

def checkUnit (unit : CompilationUnit) (options : SynthesisOptions) : UnitResult :=
  (CheckUnit.order unit).foldl (CheckUnit.finish unit options)
    { faults := (CheckUnit.repeated unit).map .duplicateRecord }

end RecordSynthesis
