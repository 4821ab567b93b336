import EntityForest.Script.Answer

/-! Steps that show or change single entities, and steps on gates. -/

namespace EntityForest.Script

open scoped PlainType

open Text (Json)

/-- The gates of some containers while a step holds them, and after it has let them go. -/
def gatesHeld (s : Scope) (cs : List ContainerRef) : Action (List Json × List Json) := do
  let r ← Action.registry
  let during := cs.foldl Holds.gate s.holds
  return (cs.map (gateAnswer during r), cs.map (gateAnswer s.holds r))

def performInspect (s : Scope) : InspectStep → Action Json
  | .look entity => do briefly (← s.entity entity)
  | .transition entity source target => do
    let e ← s.entity entity
    let moved ← Action.onRegistry (·.transition e source target)
    return .arr [.bool moved, lifecycleAnswer (← Action.registry) e]
  | .mark entity species => do
    let e ← s.entity entity
    return .bool (← Action.onRegistry (·.mark e species.marker))
  | .unmark entity species => do
    let e ← s.entity entity
    return .bool (← Action.onRegistry (·.unmark e species.marker))
  | .isMarked entity species => do
    let e ← s.entity entity
    let marked := (← Action.registry).isMarked e species.marker
    return .arr [.bool marked, .bool marked]
  | .typed entity species => do
    let e ← s.entity entity
    let r ← Action.registry
    let e ← Action.ofResult (r.typed e species.marker)
    let write ← Action.writer
    return .arr
      [.str (r.describeTyped write s.holds e species.marker), .str (write (r.entity e).id)]
  | .equal a b => do
    let x ← s.entity a
    let y ← s.entity b
    let r ← Action.registry
    return .obj
      [("eq", .bool ((r.entity x).id = (r.entity y).id)), ("same", .bool (x = y))]
  | .display node => do
    let c ← s.node node
    return .str ((← Action.registry).display (← Action.writer) c)
  | .displayChildren node => do
    let c ← s.node node
    return .str ((← Action.registry).displayContainer (← Action.writer) c)
  | .debug node => do
    let c ← s.node node
    return .str ((← Action.registry).describe (← Action.writer) s.holds c)
  | .debugTree tree => do
    let f ← Action.lookUp Session.trees tree
    return .str ((← Action.registry).describeFactory f)
  | .dump => return dump (← get)
  | .gate node => do
    let c ← s.node node
    return gateAnswer s.holds (← Action.registry) c
  | .closeGate node => do
    let c ← s.node node
    Action.modifyRegistry (·.close c)
    let (during, after) ← gatesHeld s [c]
    return .arr (during ++ after)
  | .gatePair a b => do
    let x ← s.node a
    let y ← s.node b
    let (during, after) ← gatesHeld s [x, y]
    return .arr [.arr during, .arr after]

end EntityForest.Script
