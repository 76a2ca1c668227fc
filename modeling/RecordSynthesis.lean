import RecordSynthesis.Code.Lowering
import RecordSynthesis.Code.Text
import RecordSynthesis.Datum.Decimal
import RecordSynthesis.Datum.Decoding
import RecordSynthesis.Datum.Json
import RecordSynthesis.Datum.Toml.Document
import RecordSynthesis.Decl.Decoding
import RecordSynthesis.Decl.Encoding
import RecordSynthesis.Diagnostic.Report
import RecordSynthesis.Main
import RecordSynthesis.Members.Table
import RecordSynthesis.Proofs.Account
import RecordSynthesis.Proofs.BaseCalls
import RecordSynthesis.Proofs.BaseLinks
import RecordSynthesis.Proofs.Cloning
import RecordSynthesis.Proofs.ClosedCode
import RecordSynthesis.Proofs.CodeOperands
import RecordSynthesis.Proofs.CodeReader
import RecordSynthesis.Proofs.CodeReading
import RecordSynthesis.Proofs.CodeSkeletons
import RecordSynthesis.Proofs.CodeTexts
import RecordSynthesis.Proofs.CodeTypes
import RecordSynthesis.Proofs.CodeWords
import RecordSynthesis.Proofs.ConstructorChains
import RecordSynthesis.Proofs.ConstructorCollisions
import RecordSynthesis.Proofs.Cycles
import RecordSynthesis.Proofs.DeclarationStyle
import RecordSynthesis.Proofs.DecodedSpans
import RecordSynthesis.Proofs.DecodedTypes
import RecordSynthesis.Proofs.Deconstruction
import RecordSynthesis.Proofs.Dispatch
import RecordSynthesis.Proofs.EqualityOperators
import RecordSynthesis.Proofs.Evaluation
import RecordSynthesis.Proofs.EvaluationRules
import RecordSynthesis.Proofs.FailedRuns
import RecordSynthesis.Proofs.HashCodes
import RecordSynthesis.Proofs.ImplicitConstructors
import RecordSynthesis.Proofs.Inheritance
import RecordSynthesis.Proofs.InheritedClaims
import RecordSynthesis.Proofs.Instances
import RecordSynthesis.Proofs.LabelPlaces
import RecordSynthesis.Proofs.LateBinding
import RecordSynthesis.Proofs.LineSearch
import RecordSynthesis.Proofs.Lineage
import RecordSynthesis.Proofs.Locality
import RecordSynthesis.Proofs.LoweredMembers
import RecordSynthesis.Proofs.LoweringRefusals
import RecordSynthesis.Proofs.OptionalMembers
import RecordSynthesis.Proofs.Outcomes
import RecordSynthesis.Proofs.ParameterClaims
import RecordSynthesis.Proofs.ParameterState
import RecordSynthesis.Proofs.ParameterValues
import RecordSynthesis.Proofs.PrintedText
import RecordSynthesis.Proofs.QuotedText
import RecordSynthesis.Proofs.ReadBack
import RecordSynthesis.Proofs.ReadableProperties
import RecordSynthesis.Proofs.Rearrangement
import RecordSynthesis.Proofs.References
import RecordSynthesis.Proofs.Resolution
import RecordSynthesis.Proofs.SelectedSets
import RecordSynthesis.Proofs.Serialization
import RecordSynthesis.Proofs.SignatureIdentity
import RecordSynthesis.Proofs.StatePasses
import RecordSynthesis.Proofs.Storage
import RecordSynthesis.Proofs.StructuralEquality
import RecordSynthesis.Proofs.Support
import RecordSynthesis.Proofs.Synthesis
import RecordSynthesis.Proofs.SynthesisOrder
import RecordSynthesis.Proofs.TableEntries
import RecordSynthesis.Proofs.Traversal
import RecordSynthesis.Proofs.TypeGrammar
import RecordSynthesis.Proofs.TypeIdentity
import RecordSynthesis.Proofs.TypeOutcomes
import RecordSynthesis.Proofs.TypeReading
import RecordSynthesis.Proofs.TypeScopes
import RecordSynthesis.Proofs.View
import RecordSynthesis.Proofs.ViewAgreement
import RecordSynthesis.Proofs.ViewOrder
import RecordSynthesis.Proofs.ViewRepetitions
import RecordSynthesis.Settings.Config
import RecordSynthesis.Text.Quoted
import RecordSynthesis.Ty.Binding
import RecordSynthesis.Ty.Reader
