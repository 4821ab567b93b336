import EntityForest.Table
import EntityForest.Uuid

/-! Walks along the owner links that a factory records. A record leads from an entity to the
container that owns it; the root of a tree is the first identity on the way that has no record. A
walk follows at most one link more than there are records, which is enough where the links have no
cycle. -/

namespace EntityForest.Owners

/-- The identity reached by following at most `steps` links. -/
def climb (owners : Table Uuid Uuid) : Nat → Uuid → Uuid
  | 0, id => id
  | steps + 1, id =>
    match owners.find? id with
    | some owner => climb owners steps owner
    | none => id

def rootOf (owners : Table Uuid Uuid) (id : Uuid) : Uuid := climb owners (owners.size + 1) id

/-- Whether `ancestor` is met among the first `steps` identities on the way from `id`. -/
def meets (owners : Table Uuid Uuid) (ancestor : Uuid) : Nat → Uuid → Bool
  | 0, _ => false
  | steps + 1, id =>
    if id = ancestor then true
    else
      match owners.find? id with
      | some owner => meets owners ancestor steps owner
      | none => false

/-- Whether `ancestor` is `id` or one of its owners, however remote. -/
def isWithin (owners : Table Uuid Uuid) (id ancestor : Uuid) : Bool :=
  meets owners ancestor (owners.size + 1) id

/-- One owner link. -/
def Link (owners : Table Uuid Uuid) (id owner : Uuid) : Prop := owners.find? id = some owner

end EntityForest.Owners
