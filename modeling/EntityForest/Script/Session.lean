import EntityForest.Script.Step
import EntityForest.Bus
import EntityForest.Describe
import EntityForest.Attribute.View
import EntityForest.Text.Json

/-! The state of a running script: what its names stand for, the listeners it made, and what they
have logged. An action is a step in this state that may fail. -/

namespace EntityForest.Script

open scoped PlainType

open Text (Json)

/-- A lifecycle listener made by a script. A scripted one keeps count of the runs its reactions have
left and of the failures it still skips. -/
inductive Listener where
  | silent
  | scripted (name : String) (verdicts : Verdicts) (reactions : List (EventKind × Nat × Step))
  | sender (bus : Nat)
  deriving Inhabited

/-- An attribute listener made by a script. -/
inductive BagListener where
  | silent
  | scripted (name : String) (reactions : List (Change × Nat × Step))
  deriving Inhabited

structure Session where
  /-- All species in the order of their names. -/
  species : List Species
  trees : Table String FactoryRef
  nodes : Table String ContainerRef
  listeners : Table String ListenerRef
  buses : Table String Nat
  receivers : Table String Nat
  snapshots : Table String (List EntityRef)
  sets : Table String (ListenerSet ListenerRef)
  bags : Table String BagRef
  views : Table String AttributeView
  bagListeners : Table String AttributeListenerRef
  /-- The listeners, buses and attribute listeners themselves. -/
  madeListeners : Store Listener
  madeBuses : Store (Queue Event)
  madeBagListeners : Store BagListener
  /-- The names that stand for identities which the script did not choose. -/
  aliases : Table Uuid String
  /-- How many such identities there are. -/
  freshIds : Nat
  /-- What listeners logged, the latest line first. -/
  logged : List String
  deriving Inhabited

/-- Why a step has no result. -/
inductive Failure where
  | refused (error : ContainerError)
  | noSuchName (name : String)
  | notAnEntity (name : String)

namespace Failure

def name : Failure → String
  | refused error => error.variant
  | noSuchName _ => "NoSuchName"
  | notAnEntity _ => "NotAnEntity"

end Failure

/-- An identity that the script did not choose is written as the name attached to it. -/
def Session.write (s : Session) (id : Uuid) : String :=
  if id.version = 4 then "$" ++ (s.aliases.find? id).getD "?" else id.text

/-- The script can mention an identity that it chose, or that a name is attached to. -/
def Session.knows (s : Session) (id : Uuid) : Bool := id.version ≠ 4 || id ∈ s.aliases

/-- The first name that stands for a listener. -/
def Session.listenerName (s : Session) (l : ListenerRef) : String :=
  ((s.listeners.entries.find? (·.2 = l)).map Prod.fst).getD "?"

/-- An action changes the world even where it fails. -/
abbrev Action (α : Type) := ExceptT Failure (StateM (World Session)) α

namespace Action

/-- An operation of the forest as an action. -/
def ofOperation {α : Type} (operation : World Session → Except ContainerError α × World Session) :
    Action α :=
  fun w =>
    let (result, w) := operation w
    (result.mapError .refused, w)

def ofResult {α : Type} (result : Except ContainerError α) : Action α :=
  fun w => (result.mapError .refused, w)

/-- An operation that cannot fail. -/
def run {α : Type} (operation : World Session → α × World Session) : Action α :=
  fun w =>
    let (a, w) := operation w
    (.ok a, w)

def session : Action Session := return (← get).client

def registry : Action Registry := return (← get).registry

def modifySession (f : Session → Session) : Action Unit :=
  modify fun w => { w with client := f w.client }

def onRegistry {α : Type} (f : Registry → α × Registry) : Action α :=
  run fun w =>
    let (a, r) := f w.registry
    (a, { w with registry := r })

def modifyRegistry (f : Registry → Registry) : Action Unit :=
  modify fun w => { w with registry := f w.registry }

/-- What a name stands for. -/
def lookUp {α : Type} (names : Session → Table String α) (name : String) : Action α := do
  match (names (← session)).find? name with
  | some a => return a
  | none => throw (.noSuchName name)

/-- Writes identities as the script names them. -/
def writer : Action (Uuid → String) := return (← session).write

/-- A fresh identity. -/
def freshId : Action Uuid := do
  let n := (← session).freshIds
  modifySession fun s => { s with freshIds := n + 1 }
  return .versionFour n

def nameId (id : Uuid) (name : String) : Action Unit :=
  modifySession fun s => { s with aliases := s.aliases.insert id name }

def bindNode (name : String) (c : ContainerRef) : Action Unit :=
  modifySession fun s => { s with nodes := s.nodes.insert name c }

end Action

end EntityForest.Script
