import EntityForest.Script.Perform.Bag
import EntityForest.Script.Perform.Entity
import EntityForest.Script.Perform.Factory
import EntityForest.Script.Perform.Inspect
import EntityForest.Script.Perform.Listener
import EntityForest.Script.Perform.Tree

/-! Any step, performed in a scope. -/

namespace EntityForest.Script

open scoped PlainType

open Text (Json)

def perform (s : Scope) : Step → Action Json
  | .tree step => performTree s step
  | .entity step => performEntity s step
  | .inspect step => performInspect s step
  | .factory step => performFactory s step
  | .listener step => performListener s step
  | .bag step => performBag s step
  | .newListener name silent verdicts reactions => do
    makeListener name (if silent then .silent else .scripted name verdicts reactions)
    return ok
  | .newBagListener name silent reactions => do
    makeBagListener name (if silent then .silent else .scripted name reactions)
    return ok

end EntityForest.Script
