import EntityForest.Attribute.Value

/-! A few plain types of values. Where their namespace is opened, they are all the types there are.
Decimal fractions are kept as the bits of their binary representation. -/

namespace EntityForest

inductive PlainType where
  | u32 | i64 | bool | str | list | f64
  deriving DecidableEq, Repr

namespace PlainType

def Carrier : PlainType → Type
  | u32 => UInt32
  | i64 => Int64
  | bool => Bool
  | str => String
  | list => List Int64
  | f64 => UInt64

def fullName : PlainType → String
  | u32 => "u32"
  | i64 => "i64"
  | bool => "bool"
  | str => "alloc::string::String"
  | list => "alloc::vec::Vec<i64>"
  | f64 => "f64"

scoped instance valueTypes : ValueTypes where
  Code := PlainType
  decidableEq := inferInstance
  Carrier := Carrier
  fullName := fullName

instance decidableEqCarrier : (type : PlainType) → DecidableEq (ValueType.Carrier type)
  | u32 => inferInstanceAs (DecidableEq UInt32)
  | i64 => inferInstanceAs (DecidableEq Int64)
  | bool => inferInstanceAs (DecidableEq Bool)
  | str => inferInstanceAs (DecidableEq String)
  | list => inferInstanceAs (DecidableEq (List Int64))
  | f64 => inferInstanceAs (DecidableEq UInt64)

end PlainType

end EntityForest
