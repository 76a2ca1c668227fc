import RecordSynthesis.Ty.Basic

/-!
# Binding names in types

Two passes give the names of a type their meaning: bare names become type parameters of the declaration around them, and
named types take the kind of the record they name.
-/

namespace RecordSynthesis.Ty

set_option autoImplicit false

mutual

/-- Turns every name without arguments that is in scope into a type parameter. -/
def bind (scope : List String) : Ty → Ty
  | .primitive p => .primitive p
  | .named name [] kind => if scope.contains name then .parameter name else .named name [] kind
  | .named name (argument :: others) kind => .named name (bind scope argument :: bindAll scope others) kind
  | .parameter name => .parameter name
  | .array element => .array (bind scope element)
  | .nullable underlying => .nullable (bind scope underlying)

def bindAll (scope : List String) : List Ty → List Ty
  | [] => []
  | type :: others => bind scope type :: bindAll scope others

end

mutual

/-- Gives every named type the kind found for its name, if one is found. -/
def resolveKinds (lookup : String → Option TypeKind) : Ty → Ty
  | .primitive p => .primitive p
  | .named name arguments kind => .named name (resolveKindsAll lookup arguments) ((lookup name).getD kind)
  | .parameter name => .parameter name
  | .array element => .array (resolveKinds lookup element)
  | .nullable underlying => .nullable (resolveKinds lookup underlying)

def resolveKindsAll (lookup : String → Option TypeKind) : List Ty → List Ty
  | [] => []
  | type :: others => resolveKinds lookup type :: resolveKindsAll lookup others

end

end RecordSynthesis.Ty
