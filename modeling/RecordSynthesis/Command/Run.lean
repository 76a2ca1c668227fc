import RecordSynthesis.Code.Lowering
import RecordSynthesis.Code.Text
import RecordSynthesis.Command.Arguments
import RecordSynthesis.Command.Input
import RecordSynthesis.Diagnostic.Report
import RecordSynthesis.Members.Table

/-!
# Running a command

What a command line comes to over a view of the file system: an exit status, a text for the output, and what is reported
on the side. Diagnostics do not keep the output from being written; they only make the run fail. A run that breaks off
says nothing of it, and what it has reported by then is all there is.
-/

namespace RecordSynthesis

set_option autoImplicit false

open Decl (CompilationUnit)

/-! ## Failures -/

inductive Failure
  | input (error : InputError)
  | logValue (error : LogValueError)
  | unknownRecord (name : String)
  | lowering (error : LowerError)
  /-- Some record has a diagnostic or a fault. -/
  | synthesis
  /-- No word holds the line or the column of a label. -/
  | overflow
  deriving Repr

namespace Failure

def message : Failure → String
  | input error => error.message
  | logValue error => error.message
  | unknownRecord name => "no record named `" ++ name ++ "` in the compilation unit"
  | lowering error => error.message
  | synthesis => "synthesis failed due to errors above"
  | overflow => "attempt to add with overflow"

/-- Whether the run breaks off, and says nothing of it. -/
def breaksOff : Failure → Bool
  | input (.undecodable _ (.refused _ (.badType ⟨_, .wideBlank _⟩))) => true
  | overflow => true
  | _ => false

def status (failure : Failure) : Nat :=
  if failure.breaksOff then 101 else 1

def notice? (json : Bool) (unit : String) (failure : Failure) : Option Notice :=
  if failure.breaksOff then none
  else if json then
    some <| .text (Json.write (Datum.table
      [("code", .text "R0000"), ("severity", .text "error"), ("message", .text failure.message), ("file", .text unit),
        ("spans", .list []), ("fix", .null)]).sorted ++ "\n")
  else some <| .text ("error: " ++ failure.message ++ "\n")

end Failure

/-! ## Output -/

/-- Whether a run that may be restricted to one record is about this one. -/
def isWanted (only : Option String) (record : String) : Bool :=
  match only with
  | none => true
  | some name => name = record

/-- The member sets of the wanted records, in the order of their declarations. -/
def UnitResult.selected (result : UnitResult) (unit : CompilationUnit) (only : Option String) : List MemberSet :=
  (unit.records.filter fun record => isWanted only record.name).filterMap fun record => result.table.get? record.name

/-- The diagnostics of the wanted records and then their faults, each as it is shown if it can be. -/
def UnitResult.reports (result : UnitResult) (style : NoticeStyle) (source file : String) (only : Option String) :
    List (Option Notice) :=
  ((result.diagnostics.filter fun d => isWanted only d.record).map fun d =>
      (d.notice? style source file).map (Notice.ended style))
    ++ (result.faults.filter fun f => isWanted only f.record).map fun f => some ((f.notice style file).ended style)

/-- Reports are written one after the other, up to the first one that cannot be shown. -/
def Notice.written : List (Option Notice) → List Notice
  | some notice :: others => notice :: written others
  | _ => []

def MemberSet.membersText (set : MemberSet) : String :=
  "record " ++ set.selfType.canonical ++ "\n" ++ String.join (set.members.map fun symbol => "  " ++ symbol.text ++ "\n")

def MemberSet.membersLine (set : MemberSet) : String :=
  Json.write (Datum.table
    [("record", .text set.recordName), ("members", .list (set.members.map MemberSymbol.toDatum))]).sorted ++ "\n"

def MemberSet.codeText (set : MemberSet) : Except LowerError String :=
  set.lowerAll.map fun module => "// record " ++ set.selfType.canonical ++ "\n" ++ module.render ++ "\n"

/-- The code of each set, as far as lowering goes. -/
def codeTexts : List MemberSet → List String × Option LowerError
  | [] => ([], none)
  | set :: others =>
    match set.codeText with
    | .error error => ([], some error)
    | .ok text =>
      let (texts, error) := codeTexts others
      (text :: texts, error)

/-- What a task writes, and what keeps it from writing more. -/
def Task.output (task : Task) (json : Bool) (sets : List MemberSet) : String × Option LowerError :=
  match task with
  | .members =>
    if json then (String.join (sets.map MemberSet.membersLine), none)
    else (String.intercalate "\n" (sets.map MemberSet.membersText), none)
  | .lower =>
    let (texts, error) := codeTexts sets
    (String.intercalate "\n" texts, error)
  | .check => ("", none)

/-! ## Runs -/

structure Outcome where
  status : Nat := 0
  output : String := ""
  notices : List Notice := []
  /-- What goes to the log, at the levels that are logged. -/
  events : List LogEvent := []

namespace Invocation

def style (invocation : Invocation) : NoticeStyle :=
  if invocation.json then .json else if invocation.noColor then .plain else .colored

structure Inputs where
  log : LogOptions
  options : SynthesisOptions
  unit : CompilationUnit

def load (files : FileView) (environment : LogSettings) (invocation : Invocation) : Except Failure Inputs := do
  let config ← (Config.load files invocation.config).mapError .input
  let fileLog ← config.logSettings.mapError .logValue
  let unit ← (CompilationUnit.load files invocation.unit).mapError .input
  match invocation.record with
  | some name => if (unit.find? name).isNone then throw (.unknownRecord name)
  | none => pure ()
  return ⟨LogOptions.layered fileLog environment invocation.log, config.synthesis, unit⟩

/-- A run that comes to nothing but notices and a failure. -/
def failed (invocation : Invocation) (notices : List Notice) (failure : Failure) : Outcome :=
  { status := failure.status
    notices := notices ++ (failure.notice? invocation.json invocation.unit).toList }

def reports (invocation : Invocation) (inputs : Inputs) (result : UnitResult) : List (Option Notice) :=
  result.reports invocation.style (inputs.unit.source.getD "") invocation.unit invocation.record

def events (invocation : Invocation) (inputs : Inputs) (sets : List MemberSet) : List LogEvent :=
  if invocation.task = .check && inputs.log.admits .info then
    [⟨.info, "check finished, records: " ++ toString sets.length⟩]
  else []

def finish (invocation : Invocation) (inputs : Inputs) (result : UnitResult) : Outcome :=
  let reports := invocation.reports inputs result
  let notices := Notice.written reports
  if reports.any (·.isNone) then invocation.failed notices .overflow
  else
    let sets := result.selected inputs.unit invocation.record
    let events := invocation.events inputs sets
    let (output, error) := invocation.task.output invocation.json sets
    match error with
    | some error => { invocation.failed notices (.lowering error) with output, events }
    | none =>
      if result.hasErrors then { invocation.failed notices .synthesis with output, events }
      else { notices, output, events }

def run (files : FileView) (environment : LogSettings) (invocation : Invocation) : Outcome :=
  match invocation.load files environment with
  | .error failure => invocation.failed [] failure
  | .ok inputs => invocation.finish inputs (checkUnit inputs.unit inputs.options)

def paths (invocation : Invocation) : List String :=
  [invocation.config.getD Config.defaultPath, invocation.unit]

end Invocation

/-- The exit status for a command line that is not well-formed. -/
def usageStatus : Nat := 2

def usage : String :=
  "usage: synthesize [OPTIONS] (members | lower | check) UNIT [--record NAME] [--json] [--no-color]\n"
    ++ "options: --config FILE, --log-level LEVEL, --log-format FORMAT\n"

def runCommand (files : FileView) (environment : LogSettings) (arguments : List String) : Outcome :=
  match Invocation.ofArguments? arguments with
  | none => { status := usageStatus, notices := [.text usage] }
  | some invocation => invocation.run files environment

end RecordSynthesis
