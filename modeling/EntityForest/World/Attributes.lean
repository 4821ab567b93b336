import EntityForest.World

/-! Changing attributes. A change is complete before the listeners of the bag hear of it, and those
hear of it who were registered when it was made, in the order of their registration. -/

namespace EntityForest

/-- Working with the attributes of an entity keeps the entity. -/
def Holds.keepOwner (h : Holds) : BagRef → Holds
  | .ofEntity e => h.keepEntities [e]
  | .standalone _ => h

namespace World

variable [ValueTypes] {χ : Type} (obs : Observers χ) (holds : Holds)

/-- Tells each of the listeners about a change. -/
def deliver (listeners : List AttributeListenerRef) (change : SlotChange) (w : World χ) :
    World χ :=
  listeners.foldl (fun w l => obs.bag holds l change.event w) w

/-- Stores a value; the answer is the value it replaces. -/
def setAttribute {type : ValueType} (b : BagRef) (k : Key type) (v : type.Carrier) (w : World χ) :
    Option type.Carrier × World χ :=
  let bag := w.registry.bag b
  let (change, stored) := bag.store k.slot ⟨type, v⟩
  let w := { w with registry := w.registry.setBag b stored }
  (bag.get k, deliver obs (holds.keepOwner b) bag.listeners change w)

/-- Removes a value; the answer is the value removed. -/
def removeAttribute {type : ValueType} (b : BagRef) (k : Key type) (w : World χ) :
    Option type.Carrier × World χ :=
  let bag := w.registry.bag b
  match bag.values.find? k.slot with
  | none => (none, w)
  | some v =>
    let w := { w with registry := w.registry.setBag b (bag.clear k.slot) }
    (v.as? type, deliver obs (holds.keepOwner b) bag.listeners ⟨k.slot, .removed⟩ w)

/-- Stores several values at once. The listeners hear of each, after all have been stored. -/
def storeListed (b : BagRef) (entries : List (Slot × Value)) (w : World χ) : World χ :=
  let bag := w.registry.bag b
  let (changes, stored) := bag.storeEach entries
  let w := { w with registry := w.registry.setBag b stored }
  let holds := holds.keepOwner b
  changes.foldl (fun w change => deliver obs holds bag.listeners change w) w

/-- Copies every value of one bag into another; the answer is their number. -/
def copyAttributes (target source : BagRef) (w : World χ) : Nat × World χ :=
  if target = source then (0, w)
  else
    let values := (w.registry.bag source).values
    (values.size, storeListed obs (holds.keepOwner source) target values.entries w)

end World

end EntityForest
