import EntityForest.Script.Operand

/-! The answers of steps as JSON values. Identities appear as the script names them, and lists of
identities are sorted by what is written. -/

namespace EntityForest.Script

open scoped PlainType

open Text (Json)

def ok : Json := .str "ok"

def sortedTexts (texts : List String) : List String := texts.mergeSort fun a b => a ≤ b

def idsAnswer (write : Uuid → String) (ids : List Uuid) : Json :=
  .strings (sortedTexts (ids.map write))

def valueAnswer : Value → Json
  | ⟨.u32, n⟩ => .nat (UInt32.toNat n)
  | ⟨.i64, n⟩ => .int (Int64.toInt n)
  | ⟨.bool, b⟩ => .bool b
  | ⟨.str, s⟩ => .str s
  | ⟨.list, ns⟩ => .arr (List.map (fun n => .int (Int64.toInt n)) ns)
  | ⟨.f64, bits⟩ => .str (Text.paddedHex 16 (UInt64.toNat bits))

def dataAnswer {type : ValueType} (data : Option type.Carrier) : Json :=
  Json.optional (fun d => valueAnswer ⟨type, d⟩) data

/-- The names of the species that an entity is marked as, in order. -/
def speciesNames (s : Session) (r : Registry) (e : EntityRef) : List String :=
  (s.species.filter fun species => r.isMarked e species.marker).map Species.name

def lifecycleAnswer (r : Registry) (e : EntityRef) : Json := .str (r.lifecycle e).name

def attributesAnswer (r : Registry) (e : EntityRef) : Json := .strings (r.bag (.ofEntity e)).names

def heldAnswer (write : Uuid → String) (r : Registry) (c : ContainerRef) : Json :=
  idsAnswer write (r.held c).keys

/-- The short account of an entity. -/
def brief (s : Session) (r : Registry) (e : EntityRef) : Json :=
  .obj
    [("id", .str (s.write (r.entity e).id)),
     ("life", lifecycleAnswer r e),
     ("alive", .bool (r.lifecycle e = .alive)),
     ("types", .strings (speciesNames s r e)),
     ("attrs", attributesAnswer r e),
     ("children", heldAnswer s.write r (.ofEntity e))]

def briefly (e : EntityRef) : Action Json := do
  return brief (← Action.session) (← Action.registry) e

def gateAnswer (holds : Holds) (r : Registry) (c : ContainerRef) : Json :=
  .obj [("closed", .bool (r.container c).closed), ("held", .bool (c ∈ holds.gates))]

/-- Everything the script has names for: its trees, with the owners of the identities it can
mention, and its nodes. -/
def dump (w : World Session) : Json :=
  let r := w.registry
  let write := w.client.write
  let tree (f : FactoryRef) : Json :=
    let mentioned := (r.owners f).entries.filter fun (id, _) => w.client.knows id
    let owners : Table String Json :=
      mentioned.foldl (fun t (id, owner) => t.insert (write id) (.str (write owner))) ∅
    .obj [("count", .nat (r.owners f).size), ("owners", .obj owners.entries)]
  let node (c : ContainerRef) : Json :=
    let x := r.container c
    let own :=
      match c with
      | .standalone _ => []
      | .ofEntity e =>
        [("life", lifecycleAnswer r e), ("types", .strings (speciesNames w.client r e)),
         ("attrs", attributesAnswer r e)]
    .obj
      ([("id", .str (write x.id)), ("held", heldAnswer write r c), ("closed", .bool x.closed),
        ("listeners", .strings (x.listeners.members.map w.client.listenerName))] ++ own)
  .obj
    [("trees", .obj (w.client.trees.entries.map fun (name, f) => (name, tree f))),
     ("nodes", .obj (w.client.nodes.entries.map fun (name, c) => (name, node c)))]

end EntityForest.Script
