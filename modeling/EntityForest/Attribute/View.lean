import EntityForest.Registry

/-! Read-only views of attributes. A view without a bag behaves like an empty bag. -/

namespace EntityForest

variable [ValueTypes]

structure AttributeView where
  bag : Option BagRef

namespace AttributeView

/-- What the view shows. -/
def contents (v : AttributeView) (r : Registry) : Bag := v.bag.elim ∅ r.bag

def get {type : ValueType} (v : AttributeView) (r : Registry) (k : Key type) :
    Option type.Carrier :=
  (v.contents r).get k

def contains {type : ValueType} (v : AttributeView) (r : Registry) (k : Key type) : Bool :=
  (v.contents r).contains k

def size (v : AttributeView) (r : Registry) : Nat := (v.contents r).size

def names (v : AttributeView) (r : Registry) : List String := (v.contents r).names

def describe (v : AttributeView) (r : Registry) : String :=
  Text.record "AttributeView"
    [("delegate", Text.optional (v.bag.map fun b => (r.bag b).describe))]

end AttributeView

end EntityForest
