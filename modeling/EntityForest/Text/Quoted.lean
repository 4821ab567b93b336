import EntityForest.Text.Hex
import EntityForest.Text.Printable

/-! Quoted strings, as they appear in the descriptions of objects: a string stands between double
quotes, and characters that are not printable are written as escapes. -/

namespace EntityForest.Text

/-- A character inside double quotes; a single quote needs no escape there. -/
def escape (c : Char) : String :=
  match c with
  | '\x00' => "\\0"
  | '\t' => "\\t"
  | '\r' => "\\r"
  | '\n' => "\\n"
  | '\x22' => "\\\""
  | '\x5c' => "\\\\"
  | c => if isPrintable c then c.toString else "\\u\x7b" ++ hexText c.toNat ++ "\x7d"

def quote (s : String) : String :=
  "\"" ++ s.foldl (fun acc c => acc ++ escape c) "" ++ "\""

end EntityForest.Text
