import EntityForest.Script.Reaction

/-! Running a script: its steps in order, each with a report. A step that fails does not end the
script. -/

namespace EntityForest.Script

open scoped PlainType

open Text (Json)

/-- A step of a script; the log lines of a sorted entry are reported in byte order. -/
structure Entry where
  step : Step
  sorted : Bool

/-- A failure as it is reported. -/
structure Fault where
  name : String
  /-- The kind of an error of the forest. -/
  kind : Option ErrorKind
  message : String
  source : Option String

structure Report where
  result : Except Fault Json
  log : List String
  /-- Everything the script has names for after the step, in a script that traces it. -/
  state : Option Json

def Failure.fault (write : Uuid → String) (failure : Failure) : Fault :=
  match failure with
  | .refused error => ⟨failure.name, some error.kind, error.text write, error.source⟩
  | .noSuchName name | .notAnEntity name => ⟨failure.name, none, name, none⟩

/-- Runs one entry, with nothing held. -/
def runEntry (trace : Bool) (nesting : Nat) (entry : Entry) (w : World Session) :
    Report × World Session :=
  let w := { w with client := { w.client with logged := [] } }
  let scope : Scope := ⟨observers nesting, .nothing, none⟩
  let (result, w) := perform scope entry.step w
  let lines := w.client.logged.reverse
  let lines := if entry.sorted then sortedTexts lines else lines
  let state := if trace then some (dump w) else none
  (⟨result.mapError (·.fault w.client.write), lines, state⟩, w)

def runEntries (trace : Bool) (nesting : Nat) : List Entry → World Session → List Report
  | [], _ => []
  | entry :: entries, w =>
    let (report, w) := runEntry trace nesting entry w
    report :: runEntries trace nesting entries w

/-- Runs a script from an empty forest. The species are those that it knows, in the order of their
names. Events nest at most as deep as there are reactions to run. -/
def run (species : List Species) (trace : Bool) (entries : List Entry) : List Report :=
  let nesting := entries.foldl (fun n entry => n + entry.step.weight) 1
  runEntries trace nesting entries ⟨.empty, { (default : Session) with species }⟩

end EntityForest.Script
