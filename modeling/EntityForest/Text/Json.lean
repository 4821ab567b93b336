import EntityForest.Text.Hex

/-! JSON values and their compact text, in which the keys of an object are in byte order. -/

namespace EntityForest.Text

inductive Json where
  | null
  | bool (b : Bool)
  | int (n : Int)
  | str (s : String)
  | arr (items : List Json)
  | obj (fields : List (String × Json))
  deriving Inhabited

namespace Json

def nat (n : Nat) : Json := .int n

def strings (items : List String) : Json := .arr (items.map .str)

def optional {α : Type} (f : α → Json) : Option α → Json
  | none => .null
  | some a => f a

private def escape (c : Char) : String :=
  match c with
  | '\x22' => "\\\""
  | '\x5c' => "\\\\"
  | '\n' => "\\n"
  | '\r' => "\\r"
  | '\t' => "\\t"
  | '\x08' => "\\b"
  | '\x0c' => "\\f"
  | c =>
    if c.toNat < 0x20 then "\\u" ++ paddedHex 4 c.toNat
    else c.toString

private def quoted (s : String) : String :=
  "\"" ++ s.foldl (fun acc c => acc ++ escape c) "" ++ "\""

private def sortFields (fields : List (String × String)) : List (String × String) :=
  fields.mergeSort fun a b => a.1 ≤ b.1

mutual

/-- The text without spaces; characters beyond the control characters stand for themselves. -/
def compact : Json → String
  | .null => "null"
  | .bool b => if b then "true" else "false"
  | .int n => toString n
  | .str s => quoted s
  | .arr items => "[" ++ ",".intercalate (compactItems items) ++ "]"
  | .obj fields =>
    let sorted := sortFields (compactFields fields)
    let texts := sorted.map fun (key, value) => quoted key ++ ":" ++ value
    "\x7b" ++ ",".intercalate texts ++ "\x7d"

private def compactItems : List Json → List String
  | [] => []
  | item :: items => compact item :: compactItems items

private def compactFields : List (String × Json) → List (String × String)
  | [] => []
  | (key, value) :: fields => (key, compact value) :: compactFields fields

end

end Json

end EntityForest.Text
