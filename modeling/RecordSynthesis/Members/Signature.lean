import RecordSynthesis.Decl.Member

/-!
# Signatures

Constructors and methods are told apart by the canonical texts of their parameter types, in order. Names, default values
and passing modes do not count.
-/

namespace RecordSynthesis

set_option autoImplicit false

abbrev Signature := List String

def Signature.ofTypes (types : List Ty) : Signature :=
  types.map Ty.canonical

inductive ConflictVerdict
  | noConflict
  | duplicatePrimaryConstructor
  | distinctOverload
  deriving DecidableEq, Repr

def ConflictVerdict.word : ConflictVerdict → String
  | .noConflict => "no_conflict"
  | .duplicatePrimaryConstructor => "duplicate_primary_constructor"
  | .distinctOverload => "distinct_overload"

def Decl.Constructor.conflictWith (constructor : Decl.Constructor) : Option Signature → ConflictVerdict
  | none => .noConflict
  | some primary =>
    if Signature.ofTypes constructor.types = primary then .duplicatePrimaryConstructor else .distinctOverload

/-- Constructors by signature, in the order in which they were entered. -/
structure ConstructorIndex where
  entries : List (Signature × Nat) := []
  deriving Repr, Inhabited

namespace ConstructorIndex

def insert (index : ConstructorIndex) (signature : Signature) (member : Nat) : ConstructorIndex :=
  ⟨index.entries ++ [(signature, member)]⟩

/-- The constructor that was entered first for a signature. -/
def first? (index : ConstructorIndex) (signature : Signature) : Option Nat :=
  index.entries.lookup signature

/-- The constructors among a list of members, each by its position. -/
def ofMembers (members : List Decl.Member) : ConstructorIndex :=
  ⟨members.zipIdx.filterMap fun
    | (.constructor c, position) => some (Signature.ofTypes c.types, position)
    | _ => none⟩

end ConstructorIndex

end RecordSynthesis
