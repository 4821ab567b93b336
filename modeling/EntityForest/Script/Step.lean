import EntityForest.World
import EntityForest.Attribute.Plain

/-! The steps of a script. Steps refer to objects by the names that earlier steps gave them; each
kind of object has names of its own, and entities and containers share the names of nodes. -/

namespace EntityForest.Script

open scoped PlainType

/-- A type that scripts can mark entities with, and the name that they know it by. -/
structure Species where
  name : String
  marker : Marker
  deriving DecidableEq, Repr

/-- A factory is named by its tree, or by a node whose container it is now behind. -/
inductive FactoryName where
  | tree (name : String)
  | behind (node : String)

/-- A bag is named by itself or by the entity whose attributes it holds. -/
inductive BagName where
  | named (name : String)
  | attributesOf (entity : String)

/-- Attributes for a new entity: a copy of a bag, or a list of values set one by one. -/
inductive Seed where
  | copied (bag : String)
  | listed (values : List (String × Value))

inductive Settings where
  | given (limit : Option Nat) (capacity : Nat)
  | toml (text : String)

/-- The identity of a new container: that of a node it reports instead of itself, a given one, or a
fresh one. -/
inductive Identity where
  | delegated (node : String)
  | given (id : Uuid)
  | fresh

structure StubSpec where
  id : Uuid
  species : Option Species
  attributes : List (String × Value)

/-- The kinds of objects whose names can be forgotten. -/
inductive NameKind where
  | node
  | tree
  | bus
  | receiver
  | listener
  | snapshot
  | bag
  deriving DecidableEq

/-- Steps on trees and containers. -/
inductive TreeStep where
  | tree (name : String) (settings : Settings)
  | container (name : String) (factory : FactoryName) (identity : Identity)
  | build (name : String) (tree : Option String) (settings : Settings)
      (listeners : List String) (stubs : List StubSpec)
  | drop (kind : NameKind) (name : String)
  | rebind (node : String) (factory : FactoryName)
  | delegate (node : String)
  | containerId (node : String)

/-- Steps on the entities that containers hold. -/
inductive EntityStep where
  | create (node : String) (id : Uuid) (species : Option Species) (seed : Seed)
      (bind : Option String)
  | createTyped (node : String) (id : Uuid) (species : Species) (seed : Seed)
      (bind : Option String)
  | createFresh (node bind : String)
  | find (node : String) (id : Uuid) (bind : Option String)
  | findTyped (node : String) (id : Uuid) (species : Species)
  | ofSpecies (node : String) (species : Species)
  | has (node : String) (id : Uuid)
  | count (node : String)
  | ids (node : String)
  | snapshot (node name : String)
  | see (name : String)
  | kill (node : String) (id : Uuid)
  | killAll (node : String)
  | transfer (source : String) (id : Uuid) (destination : String)
  | transferAll (source destination : String)
  | receive (node entity : String)

/-- Steps on entities themselves and on their descriptions. -/
inductive InspectStep where
  | look (entity : String)
  | transition (entity : String) (source target : Lifecycle)
  | mark (entity : String) (species : Species)
  | unmark (entity : String) (species : Species)
  | isMarked (entity : String) (species : Species)
  | typed (entity : String) (species : Species)
  | equal (a b : String)
  | display (node : String)
  /-- Displays what a node holds, also where the node is an entity. -/
  | displayChildren (node : String)
  | debug (node : String)
  | debugTree (tree : String)
  | dump
  | gate (node : String)
  | closeGate (node : String)
  | gatePair (a b : String)

/-- Steps on a factory itself, past the containers. -/
inductive FactoryStep where
  | mint (factory : FactoryName) (owner : String) (id : Uuid) (bind : Option String)
  | retire (factory : FactoryName) (entity : String)
  | sameTree (factory : FactoryName) (a b : String)
  | relocate (factory : FactoryName) (entity owner : String)
  | adopt (factory : FactoryName) (entity owner : String)
  | release (factory : FactoryName) (entity : String)
  | count (factory : FactoryName)
  | owner (factory : FactoryName) (id : Uuid)
  | root (factory : FactoryName) (node : String)
  | config (factory : FactoryName)
  | sameFactory (a b : String)

/-- Steps on registered listeners, on buses and on bare sets of listeners. -/
inductive ListenerStep where
  | listen (node listener : String)
  | unlisten (node listener : String)
  | unlistenAll (node : String)
  | listeners (node : String)
  | bus (name : String) (capacity : Nat)
  | sender (bus name : String)
  | receiver (bus name : String)
  | pair (capacity : Nat) (sender receiver : String)
  | drain (receiver : String)
  | take (receiver : String)
  | pending (receiver : String)
  | set (name : String)
  | setAdd (set listener : String)
  | setRemove (set listener : String)
  | setHas (set listener : String)
  | setClear (set : String)
  | setExtend (set : String) (listeners : List String)
  | setState (set : String)
  | setFire (set : String) (event : EventKind) (node entity : String) (destination : Option String)

/-- Steps on bags and views. -/
inductive BagStep where
  | bag (name : String) (attributes : List (String × Value))
  | set (bag : BagName) (key : String) (value : Value)
  | get (bag : BagName) (key : String) (type : ValueType)
  | remove (bag : BagName) (key : String) (type : ValueType)
  | state (bag : BagName)
  | debug (bag : BagName)
  | copy (target source : BagName)
  | listen (bag : BagName) (listener : String)
  | unlisten (bag : BagName) (listener : String)
  | unlistenAll (bag : BagName)
  | key (key : String) (type : ValueType)
  | view (name : String) (bag : Option BagName)
  | viewGet (view key : String) (type : ValueType)
  | viewState (view : String)

/-- How a scripted lifecycle listener judges events: it fails on those listed, except for the first
`skip` of them. -/
structure Verdicts where
  failing : List EventKind
  skip : Nat
  failure : ListenerError

inductive Step where
  | tree (step : TreeStep)
  | entity (step : EntityStep)
  | inspect (step : InspectStep)
  | factory (step : FactoryStep)
  | listener (step : ListenerStep)
  | bag (step : BagStep)
  /-- Makes a listener that logs events and reacts to each kind of event by running steps, each as
  often as it says. A silent listener does nothing. -/
  | newListener (name : String) (silent : Bool) (verdicts : Verdicts)
      (reactions : List (EventKind × Nat × Step))
  | newBagListener (name : String) (silent : Bool) (reactions : List (Change × Nat × Step))

mutual

/-- A bound on the entities that a step can bring to life, directly or through the listeners it
makes. -/
def Step.weight : Step → Nat
  | .tree (.build _ _ _ _ stubs) => stubs.length + 1
  | .newListener _ _ _ reactions => reactionsWeight reactions + 1
  | .newBagListener _ _ reactions => bagReactionsWeight reactions + 1
  | _ => 1

def reactionsWeight : List (EventKind × Nat × Step) → Nat
  | [] => 0
  | (_, times, step) :: rest => times * step.weight + reactionsWeight rest

def bagReactionsWeight : List (Change × Nat × Step) → Nat
  | [] => 0
  | (_, times, step) :: rest => times * step.weight + bagReactionsWeight rest

end

end EntityForest.Script
