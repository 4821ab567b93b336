import EntityForest.Script.Session
import EntityForest.Config.Toml

/-! What the operands of a step stand for. -/

namespace EntityForest.Script

open scoped PlainType

/-- Where a step runs: which observers hear of its events, what is held meanwhile, and, in the
reaction to a lifecycle event, the entity that the event is about. -/
structure Scope where
  observers : Observers Session
  holds : Holds
  subject : Option EntityRef

namespace Scope

/-- The name of the subject of a reaction. -/
def subjectName : String := "@"

variable (s : Scope)

def node (name : String) : Action ContainerRef :=
  match s.subject with
  | some e => if name = subjectName then return .ofEntity e else Action.lookUp Session.nodes name
  | none => Action.lookUp Session.nodes name

def entity (name : String) : Action EntityRef := do
  match ← s.node name with
  | .ofEntity e => return e
  | .standalone _ => throw (.notAnEntity name)

def factory : FactoryName → Action FactoryRef
  | .tree name => Action.lookUp Session.trees name
  | .behind name => do
    let c ← s.node name
    return ((← Action.registry).container c).factory

def bag : BagName → Action BagRef
  | .named name => Action.lookUp Session.bags name
  | .attributesOf name => return .ofEntity (← s.entity name)

/-- An operation of the forest, heard by the observers of the scope. -/
def operate {α : Type}
    (operation : Observers Session → Holds → World Session →
      Except ContainerError α × World Session) : Action α :=
  Action.ofOperation (operation s.observers s.holds)

/-- An operation that cannot fail, heard by the observers of the scope. -/
def apply {α : Type} (operation : Observers Session → Holds → World Session → α × World Session) :
    Action α :=
  Action.run (operation s.observers s.holds)

end Scope

/-- Values listed one by one; a later value for the same slot replaces an earlier one. -/
def listedValues (values : List (String × Value)) : Table Slot Value :=
  values.foldl (fun t p => t.insert ⟨p.1, p.2.type⟩ p.2) ∅

def Seed.values : Seed → Action (Table Slot Value)
  | .copied name => do
    let b ← Action.lookUp Session.bags name
    return ((← Action.registry).bag b).values
  | .listed values => return listedValues values

def Settings.config : Settings → Except ContainerError TreeConfig
  | .given limit capacity => .ok ⟨limit, capacity⟩
  | .toml text => TreeConfig.fromToml .plain text

end EntityForest.Script
