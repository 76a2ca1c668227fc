import RecordSynthesis.Text.Position
import RecordSynthesis.Ty.Basic

/-!
# Diagnostics and faults

A diagnostic is about something the program says and leaves the record's member set intact. A fault is a broken promise
between declarations: the record gets no member set.
-/

namespace RecordSynthesis

set_option autoImplicit false

inductive Diagnostic
  /-- A constructor has the parameter types of the primary constructor. -/
  | duplicatePrimaryConstructor (record : String) (types : List Ty) (span primarySpan : Span)
  deriving Repr, Inhabited

namespace Diagnostic

def record : Diagnostic → String
  | duplicatePrimaryConstructor record _ _ _ => record

def span : Diagnostic → Span
  | duplicatePrimaryConstructor _ _ span _ => span

def primarySpan : Diagnostic → Span
  | duplicatePrimaryConstructor _ _ _ primarySpan => primarySpan

def types : Diagnostic → List Ty
  | duplicatePrimaryConstructor _ types _ _ => types

def kind : Diagnostic → String
  | duplicatePrimaryConstructor .. => "DuplicatePrimaryConstructor"

def code : Diagnostic → String
  | duplicatePrimaryConstructor .. => "R0001"

def isError : Diagnostic → Bool
  | duplicatePrimaryConstructor .. => true

def message : Diagnostic → String
  | duplicatePrimaryConstructor record types _ _ =>
    "record `" ++ record ++ "` already defines a primary constructor with parameter types ("
      ++ String.intercalate ", " (types.map Ty.canonical) ++ ")"

end Diagnostic

inductive Fault
  | missingCopyConstructorShape (record : String)
  | unresolvedBase (record base : String)
  | valueTypeWithBase (record base : String)
  | valueTypeBase (record base : String)
  | unknownBaseArgument (record argument : String)
  | inheritanceCycle (record : String)
  | duplicateRecord (record : String)
  deriving DecidableEq, Repr, Inhabited

namespace Fault

def record : Fault → String
  | missingCopyConstructorShape record => record
  | unresolvedBase record _ => record
  | valueTypeWithBase record _ => record
  | valueTypeBase record _ => record
  | unknownBaseArgument record _ => record
  | inheritanceCycle record => record
  | duplicateRecord record => record

def kind : Fault → String
  | missingCopyConstructorShape _ => "MissingCopyConstructorShape"
  | unresolvedBase _ _ => "UnresolvedBase"
  | valueTypeWithBase _ _ => "ValueTypeWithBase"
  | valueTypeBase _ _ => "ValueTypeBase"
  | unknownBaseArgument _ _ => "UnknownBaseArgument"
  | inheritanceCycle _ => "InheritanceCycle"
  | duplicateRecord _ => "DuplicateRecord"

def code : Fault → String
  | missingCopyConstructorShape _ => "R9001"
  | unresolvedBase _ _ => "R9002"
  | valueTypeWithBase _ _ => "R9003"
  | valueTypeBase _ _ => "R9004"
  | unknownBaseArgument _ _ => "R9005"
  | inheritanceCycle _ => "R9006"
  | duplicateRecord _ => "R9007"

def message : Fault → String
  | missingCopyConstructorShape record =>
    "record `" ++ record ++ "` has neither an adoptable nor a synthesizable copy constructor"
  | unresolvedBase record base =>
    "base `" ++ base ++ "` of record `" ++ record ++ "` was not synthesized before it"
  | valueTypeWithBase record base => "value-type record `" ++ record ++ "` cannot derive from `" ++ base ++ "`"
  | valueTypeBase record base => "record `" ++ record ++ "` cannot derive from value-type record `" ++ base ++ "`"
  | unknownBaseArgument record argument =>
    "record `" ++ record ++ "` forwards `" ++ argument ++ "` to its base, but has no such primary parameter"
  | inheritanceCycle record => "record `" ++ record ++ "` is part of an inheritance cycle"
  | duplicateRecord record => "record `" ++ record ++ "` is declared more than once"

end Fault

end RecordSynthesis
