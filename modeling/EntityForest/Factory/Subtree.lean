import EntityForest.Registry

/-! The entities below an entity: those in its child container, those in their child containers, and
so on. -/

namespace EntityForest.Registry

variable [ValueTypes]

/-- The entities in the child container of `e`, each with the identity of that container. -/
def childrenOf (r : Registry) (e : EntityRef) : List (EntityRef × Uuid) :=
  (r.held (.ofEntity e)).values.map fun child => (child, r.containerId (.ofEntity e))

/-- The entities at most `depth` levels below those given, level by level. -/
def below (r : Registry) : Nat → List EntityRef → List (EntityRef × Uuid)
  | 0, _ => []
  | depth + 1, parents =>
    match parents.flatMap r.childrenOf with
    | [] => []
    | level => level ++ below r depth (level.map Prod.fst)

/-- Every entity below `e` with the identity of the container that holds it, parents before their
children. Without a cycle there are no more levels than child containers that hold anything. -/
def descendants (r : Registry) (e : EntityRef) : List (EntityRef × Uuid) :=
  r.below r.children.size [e]

/-- One step down: `child` lies in the child container of `parent`. -/
def Parent (r : Registry) (parent child : EntityRef) : Prop :=
  ∃ id, (r.held (.ofEntity parent)).find? id = some child

/-- The entities strictly below an entity. -/
inductive Below (r : Registry) (e : EntityRef) : EntityRef → Prop
  | child {x} : r.Parent e x → Below r e x
  | step {x y} : Below r e x → r.Parent x y → Below r e y

end EntityForest.Registry
