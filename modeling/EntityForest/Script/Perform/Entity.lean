import EntityForest.Script.Answer
import EntityForest.World.Create
import EntityForest.World.Kill
import EntityForest.World.Transfer

/-! Steps that create, find, kill and move entities. -/

namespace EntityForest.Script

open scoped PlainType

open Text (Json)

/-- Binds a handle, if there is one, and gives the short account of its entity. -/
def bindEntity (bind : Option String) (e : EntityRef) : Action Json := do
  if let some name := bind then Action.bindNode name (.ofEntity e)
  briefly e

def performEntity (s : Scope) : EntityStep → Action Json
  | .create node id species seed bind => do
    let c ← s.node node
    let values ← seed.values
    let e ← s.operate fun obs holds =>
      match species with
      | some species => World.newEntityOfType obs holds c id species.marker values
      | none => World.newEntity obs holds c id values
    bindEntity bind e
  | .createTyped node id species seed bind => do
    let c ← s.node node
    let values ← seed.values
    let e ← s.operate fun obs holds => World.newEntityOfType obs holds c id species.marker values
    let e ← Action.ofResult ((← Action.registry).typed e species.marker)
    bindEntity bind e
  | .createFresh node bind => do
    let c ← s.node node
    let id ← Action.freshId
    let e ← s.operate fun obs holds => World.newEntity obs holds c id ∅
    Action.nameId id bind
    Action.bindNode bind (.ofEntity e)
    return .obj [("version", .nat id.version), ("nil", .bool (id = .nil))]
  | .find node id bind => do
    let c ← s.node node
    match ((← Action.registry).held c).find? id with
    | some e => bindEntity bind e
    | none => return .null
  | .findTyped node id species => do
    let c ← s.node node
    let r ← Action.registry
    match (r.held c).find? id with
    | some e =>
      if r.isMarked e species.marker then return .str ((← Action.writer) (r.entity e).id)
      else return .null
    | none => return .null
  | .ofSpecies node species => do
    let c ← s.node node
    let r ← Action.registry
    let found := (r.held c).values.filter (r.isMarked · species.marker)
    return idsAnswer (← Action.writer) (found.map fun e => (r.entity e).id)
  | .has node id => do
    let c ← s.node node
    return .bool (id ∈ (← Action.registry).held c)
  | .count node => do
    let c ← s.node node
    return .nat ((← Action.registry).held c).size
  | .ids node => do
    let c ← s.node node
    return heldAnswer (← Action.writer) (← Action.registry) c
  | .snapshot node name => do
    let c ← s.node node
    let entities := ((← Action.registry).held c).values
    Action.modifySession fun s => { s with snapshots := s.snapshots.insert name entities }
    return .nat entities.length
  | .see name => do
    let entities ← Action.lookUp Session.snapshots name
    let r ← Action.registry
    let write ← Action.writer
    let items := entities.map fun e => write (r.entity e).id ++ " " ++ (r.lifecycle e).name
    return .obj
      [("len", .nat entities.length), ("empty", .bool entities.isEmpty),
       ("items", .strings (sortedTexts items)), ("again", .bool true)]
  | .kill node id => do
    let c ← s.node node
    return .bool (← s.operate fun obs holds => World.kill obs holds c id)
  | .killAll node => do
    let c ← s.node node
    s.operate fun obs holds => World.killAll obs holds c
    return ok
  | .transfer source id destination => do
    let b ← s.node destination
    let a ← s.node source
    return .bool (← s.operate fun obs holds => World.transfer obs holds a id b)
  | .transferAll source destination => do
    let b ← s.node destination
    let a ← s.node source
    return .nat (← s.operate fun obs holds => World.transferAll obs holds a b)
  | .receive node entity => do
    let e ← s.entity entity
    let c ← s.node node
    return .bool (← s.operate fun obs holds => World.receive obs holds c e)

end EntityForest.Script
