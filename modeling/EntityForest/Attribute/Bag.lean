import EntityForest.Table
import EntityForest.Attribute.Value
import EntityForest.Text.Quoted
import EntityForest.Text.Record

/-! Bags of typed values. A bag is a finite map from slots to values; every write names the change
it makes, which is what the listeners of the bag are told afterwards. -/

namespace EntityForest

structure AttributeListenerRef where
  index : Nat
  deriving DecidableEq, Repr

/-- What a write did to a slot. -/
inductive Change where
  | added
  | changed
  | removed
  deriving DecidableEq, Repr

/-- What listeners are told of a change. The type of the value is told by its printed name only. -/
structure AttributeEvent where
  name : String
  typeName : String
  change : Change
  deriving DecidableEq, Repr

variable [ValueTypes]

/-- A change that was made to a slot. -/
structure SlotChange where
  slot : Slot
  kind : Change
  deriving DecidableEq

namespace SlotChange

def event (c : SlotChange) : AttributeEvent := ⟨c.slot.name, c.slot.type.fullName, c.kind⟩

@[simp] theorem event_change (c : SlotChange) : c.event.change = c.kind := rfl

end SlotChange

structure Bag where
  values : Table Slot Value
  /-- Registered listeners in the order of their registration. -/
  listeners : List AttributeListenerRef

namespace Bag

def empty : Bag := ⟨∅, []⟩

instance : EmptyCollection Bag := ⟨empty⟩
instance : Inhabited Bag := ⟨∅⟩

/-! ### Reading -/

def get {type : ValueType} (b : Bag) (k : Key type) : Option type.Carrier :=
  (b.values.find? k.slot).bind (Value.as? · type)

def contains {type : ValueType} (b : Bag) (k : Key type) : Bool := k.slot ∈ b.values

def size (b : Bag) : Nat := b.values.size

/-- The names of the filled slots in byte order; a name appears once for each type it carries. -/
def names (b : Bag) : List String :=
  (b.values.keys.map Slot.name).mergeSort fun a b => a ≤ b

/-! ### Writing -/

/-- Fills a slot. -/
def store (b : Bag) (slot : Slot) (v : Value) : SlotChange × Bag :=
  let change := if slot ∈ b.values then Change.changed else Change.added
  (⟨slot, change⟩, { b with values := b.values.insert slot v })

/-- Fills several slots in order. -/
def storeEach (b : Bag) : List (Slot × Value) → List SlotChange × Bag
  | [] => ([], b)
  | (slot, v) :: rest =>
    let (change, b) := b.store slot v
    let (changes, b) := storeEach b rest
    (change :: changes, b)

/-- Empties a slot. -/
def clear (b : Bag) (slot : Slot) : Bag := { b with values := b.values.erase slot }

/-- The values of a bag without its listeners. -/
def ofValues (values : Table Slot Value) : Bag := ⟨values, []⟩

@[simp] theorem values_store (b : Bag) (slot : Slot) (v : Value) :
    (b.store slot v).2.values = b.values.insert slot v := rfl

@[simp] theorem listeners_store (b : Bag) (slot : Slot) (v : Value) :
    (b.store slot v).2.listeners = b.listeners := rfl

theorem values_storeEach (b : Bag) (entries : List (Slot × Value)) :
    (b.storeEach entries).2.values = entries.foldl (fun t p => t.insert p.1 p.2) b.values := by
  induction entries generalizing b with
  | nil => rfl
  | cons p rest ih => simp only [storeEach, ih, values_store, List.foldl_cons]

/-! ### Listeners -/

/-- Registers a listener; answers whether it was absent. -/
def addListener (b : Bag) (l : AttributeListenerRef) : Bool × Bag :=
  if l ∈ b.listeners then (false, b) else (true, { b with listeners := b.listeners ++ [l] })

/-- Removes a listener and keeps the order of the others; answers whether it was present. -/
def removeListener (b : Bag) (l : AttributeListenerRef) : Bool × Bag :=
  let kept := b.listeners.filter (· ≠ l)
  (kept.length ≠ b.listeners.length, { b with listeners := kept })

def clearListeners (b : Bag) : Bag := { b with listeners := [] }

def describe (b : Bag) : String :=
  Text.partialRecord "AttributeContainer"
    [("names", Text.list (b.names.map Text.quote))]

end Bag

end EntityForest
