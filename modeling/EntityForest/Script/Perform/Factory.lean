import EntityForest.Script.Answer
import EntityForest.Script.Perform.Entity

/-! Steps on a factory itself. The containers do not take part, so records and containers can be
made to disagree. -/

namespace EntityForest.Script

open scoped PlainType

open Text (Json)

def performFactory (s : Scope) : FactoryStep → Action Json
  | .mint factory owner id bind => do
    let f ← s.factory factory
    let c ← s.node owner
    let (e, r) ← Action.ofResult ((← Action.registry).mint f c id)
    Action.modifyRegistry fun _ => r
    bindEntity bind e
  | .retire factory entity => do
    let f ← s.factory factory
    let e ← s.entity entity
    return .bool (← Action.onRegistry (·.retire f e))
  | .sameTree factory a b => do
    let f ← s.factory factory
    let x ← s.node a
    let y ← s.node b
    return .bool ((← Action.registry).sameTree f x y)
  | .relocate factory entity owner => do
    let f ← s.factory factory
    let e ← s.entity entity
    let c ← s.node owner
    return .bool (← Action.onRegistry (·.relocate f e c))
  | .adopt factory entity owner => do
    let f ← s.factory factory
    let e ← s.entity entity
    let c ← s.node owner
    return .bool (← Action.onRegistry (·.adopt f e c))
  | .release factory entity => do
    let f ← s.factory factory
    let e ← s.entity entity
    Action.modifyRegistry (·.release f e)
    return lifecycleAnswer (← Action.registry) e
  | .count factory => do
    let f ← s.factory factory
    return .nat ((← Action.registry).owners f).size
  | .owner factory id => do
    let f ← s.factory factory
    let write ← Action.writer
    let owner := ((← Action.registry).owners f).find? id
    return Json.optional (fun o => .str (write o)) owner
  | .root factory node => do
    let f ← s.factory factory
    let c ← s.node node
    return .str ((← Action.writer) ((← Action.registry).rootOf f c))
  | .config factory => do
    let f ← s.factory factory
    let config := ((← Action.registry).factory f).config
    return .arr [Json.optional .nat config.entityLimit, .nat config.initialCapacity]
  | .sameFactory a b => do
    let x ← s.node a
    let y ← s.node b
    let r ← Action.registry
    return .bool ((r.container x).factory = (r.container y).factory)

end EntityForest.Script
