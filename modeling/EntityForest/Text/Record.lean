/-! Descriptions of records, variants and lists on one line. -/

namespace EntityForest.Text

def braced (content : String) : String := "\x7b " ++ content ++ " \x7d"

private def fieldTexts (fields : List (String × String)) : List String :=
  fields.map fun (name, value) => name ++ ": " ++ value

/-- A record with all its fields. -/
def record (name : String) (fields : List (String × String)) : String :=
  name ++ " " ++ braced (", ".intercalate (fieldTexts fields))

/-- A record that has more fields than it shows. -/
def partialRecord (name : String) (fields : List (String × String)) : String :=
  name ++ " " ++ braced (", ".intercalate (fieldTexts fields ++ [".."]))

/-- A named value with one part. -/
def wrapped (name content : String) : String := name ++ "(" ++ content ++ ")"

def list (items : List String) : String := "[" ++ ", ".intercalate items ++ "]"

def optional : Option String → String
  | none => "None"
  | some content => wrapped "Some" content

end EntityForest.Text
