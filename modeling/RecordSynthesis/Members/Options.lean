import RecordSynthesis.Datum.Decoding

/-!
# Synthesis options

The members that may be left out.
-/

namespace RecordSynthesis

set_option autoImplicit false

structure SynthesisOptions where
  deconstruct : Bool := true
  operators : Bool := true
  textForm : Bool := true
  deriving DecidableEq, Repr, Inhabited

namespace SynthesisOptions

/-- Nothing but what every record needs. -/
def minimal : SynthesisOptions := ⟨false, false, false⟩

def ofDatum (reading : Reading) (datum : Datum) : Except DecodeError SynthesisOptions := do
  let opened ← Layout.open ⟨"SynthesisOptions", ["deconstruct", "operators", "to_string"], true⟩ reading datum
  let deconstruct := opened.optional "deconstruct" true Datum.asBool
  let operators := opened.optional "operators" true Datum.asBool
  let textForm := opened.optional "to_string" true Datum.asBool
  opened.settle [failure? deconstruct, failure? operators, failure? textForm]
  return { deconstruct := ← deconstruct, operators := ← operators, textForm := ← textForm }

end SynthesisOptions

end RecordSynthesis
