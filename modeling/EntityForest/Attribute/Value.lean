/-! Typed attribute values and the slots they are stored in. A slot is a name together with a value
type, so one name can carry several values of different types. Which types there are is left open.
-/

namespace EntityForest

/-- The types that stored values can have. Types are told apart by their codes. The name that a type
is reported under need not be its own: two types may be printed alike. -/
class ValueTypes where
  Code : Type
  decidableEq : DecidableEq Code
  Carrier : Code → Type
  fullName : Code → String

variable [ValueTypes]

/-- A type of stored values. -/
def ValueType : Type := ValueTypes.Code

instance : DecidableEq ValueType := ValueTypes.decidableEq

namespace ValueType

/-- The values of a type. -/
def Carrier (type : ValueType) : Type := ValueTypes.Carrier type

/-- The full name under which change notifications report the type. -/
def fullName (type : ValueType) : String := ValueTypes.fullName type

end ValueType

/-- A value together with its type. -/
structure Value where
  type : ValueType
  data : type.Carrier

/-- The value as one of the given type, if it has that type. -/
def Value.as? (v : Value) (type : ValueType) : Option type.Carrier :=
  if h : v.type = type then some (h ▸ v.data) else none

@[simp] theorem Value.as?_mk (type : ValueType) (data : type.Carrier) :
    (Value.mk type data).as? type = some data := by simp [Value.as?]

/-- The address of a stored value. -/
structure Slot where
  name : String
  type : ValueType
  deriving DecidableEq

/-- A name for values of one type. -/
structure Key (type : ValueType) where
  name : String
  deriving DecidableEq

def Key.slot {type : ValueType} (k : Key type) : Slot := ⟨k.name, type⟩

end EntityForest
