import EntityForest.Config

/-! A plain kind of TOML, in which a text is read line by line: a line is blank, a comment, or a key
with an integer. It is all that settings are written in. -/

namespace EntityForest

namespace TreeConfig

/-- Why a text gives no settings. -/
inductive Fault where
  | malformed
  | unknownKey (name : String)
  | repeatedKey (name : String)
  | outOfRange (name : String)
  deriving DecidableEq

def Fault.reason : Fault → String
  | malformed => "a line is neither blank, nor a comment, nor a key with an integer"
  | unknownKey name => "unknown key " ++ Text.quote name
  | repeatedKey name => "repeated key " ++ Text.quote name
  | outOfRange name => "the value of " ++ name ++ " is out of range"

/-! ### Integers -/

def digit? (base : Nat) (c : Char) : Option Nat :=
  let value :=
    if '0' ≤ c ∧ c ≤ '9' then c.toNat - '0'.toNat
    else if 'a' ≤ c ∧ c ≤ 'f' then c.toNat - 'a'.toNat + 10
    else if 'A' ≤ c ∧ c ≤ 'F' then c.toNat - 'A'.toNat + 10
    else base
  if value < base then some value else none

/-- Digits with single underscores between them; `n` is the value of those already read, and
`afterDigit` tells whether the last character read was a digit. -/
def digits? (base n : Nat) (afterDigit : Bool) : List Char → Option Nat
  | [] => if afterDigit then some n else none
  | c :: cs =>
    if c = '_' then
      if afterDigit then digits? base n false cs else none
    else
      match digit? base c with
      | some d => digits? base (base * n + d) true cs
      | none => none

/-- A decimal number has no superfluous zero in front. -/
def decimal? : List Char → Option Nat
  | ['0'] => some 0
  | '0' :: _ => none
  | cs => digits? 10 0 false cs

/-- An integer is decimal with an optional sign, or unsigned with a base. -/
def integer? : List Char → Option Int
  | '0' :: 'x' :: cs => (digits? 16 0 false cs).map Int.ofNat
  | '0' :: 'o' :: cs => (digits? 8 0 false cs).map Int.ofNat
  | '0' :: 'b' :: cs => (digits? 2 0 false cs).map Int.ofNat
  | '+' :: cs => (decimal? cs).map Int.ofNat
  | '-' :: cs => (decimal? cs).map fun n => -Int.ofNat n
  | cs => (decimal? cs).map Int.ofNat

/-! ### Keys -/

def isBlank (c : Char) : Bool := c = ' ' || c = '\t'

/-- The characters that a comment or a quoted key may hold. -/
def isTextChar (c : Char) : Bool := c = '\t' || (0x20 ≤ c.toNat && c.toNat ≠ 0x7f)

def isBareKeyChar (c : Char) : Bool := c.isAlphanum || c = '_' || c = '-'

/-- The character with the code given by hexadecimal digits, if there is one. -/
def codePoint? (cs : List Char) : Option Char := do
  let n ← cs.foldlM (fun n c => (digit? 16 c).map (16 * n + ·)) 0
  if h : n.isValidChar then some (Char.ofNatAux n h) else none

/-- The rest of a key in double quotes, and the characters behind it. -/
def readQuoted (read : List Char) : List Char → Option (List Char × List Char)
  | [] => none
  | '\x22' :: cs => some (read.reverse, cs)
  | '\x5c' :: 'u' :: a :: b :: c :: d :: cs =>
    match codePoint? [a, b, c, d] with
    | some x => readQuoted (x :: read) cs
    | none => none
  | '\x5c' :: 'U' :: a :: b :: c :: d :: e :: f :: g :: h :: cs =>
    match codePoint? [a, b, c, d, e, f, g, h] with
    | some x => readQuoted (x :: read) cs
    | none => none
  | '\x5c' :: 'b' :: cs => readQuoted ('\x08' :: read) cs
  | '\x5c' :: 't' :: cs => readQuoted ('\t' :: read) cs
  | '\x5c' :: 'n' :: cs => readQuoted ('\n' :: read) cs
  | '\x5c' :: 'f' :: cs => readQuoted ('\x0c' :: read) cs
  | '\x5c' :: 'r' :: cs => readQuoted ('\r' :: read) cs
  | '\x5c' :: '\x22' :: cs => readQuoted ('\x22' :: read) cs
  | '\x5c' :: '\x5c' :: cs => readQuoted ('\x5c' :: read) cs
  | '\x5c' :: _ => none
  | c :: cs => if isTextChar c then readQuoted (c :: read) cs else none

/-- The rest of a key in single quotes, in which nothing is escaped. -/
def readLiteral (read : List Char) : List Char → Option (List Char × List Char)
  | [] => none
  | c :: cs =>
    if c = '\x27' then some (read.reverse, cs)
    else if isTextChar c then readLiteral (c :: read) cs
    else none

/-- A key and the characters behind it. -/
def readKey (line : List Char) : Option (String × List Char) :=
  match line with
  | '\x22' :: cs => (readQuoted [] cs).map fun (key, rest) => (String.ofList key, rest)
  | '\x27' :: cs => (readLiteral [] cs).map fun (key, rest) => (String.ofList key, rest)
  | cs =>
    match cs.takeWhile isBareKeyChar with
    | [] => none
    | key => some (String.ofList key, cs.dropWhile isBareKeyChar)

/-! ### Lines -/

/-- Lines end at a line feed, which may follow a carriage return. -/
def splitLines : List Char → List (List Char)
  | [] => [[]]
  | '\r' :: '\n' :: cs => [] :: splitLines cs
  | '\n' :: cs => [] :: splitLines cs
  | c :: cs =>
    match splitLines cs with
    | [] => [[c]]
    | line :: lines => (c :: line) :: lines

/-- Whether nothing but blanks and a comment is left of a line. -/
def endsLine (cs : List Char) : Bool :=
  match cs.dropWhile isBlank with
  | [] => true
  | '#' :: comment => comment.all isTextChar
  | _ => false

def endsValue (c : Char) : Bool := isBlank c || c = '#'

/-- The key and the integer of a line, if it has them. -/
def readEntry (line : List Char) : Except Fault (Option (String × Int)) :=
  if endsLine line then .ok none
  else
    match readKey (line.dropWhile isBlank) with
    | none => .error .malformed
    | some (key, rest) =>
      match rest.dropWhile isBlank with
      | '=' :: rest =>
        let value := rest.dropWhile isBlank
        match integer? (value.takeWhile (!endsValue ·)) with
        | some n =>
          if endsLine (value.dropWhile (!endsValue ·)) then .ok (some (key, n))
          else .error .malformed
        | none => .error .malformed
      | _ => .error .malformed

/-! ### Texts -/

/-- A signed number of 64 bits, if the integer is one. -/
def value? (n : Int) : Option TomlValue :=
  if (Int64.ofInt n).toInt = n then some (.integer (.ofInt n)) else none

/-- The entries of some lines, no two of which have the same key. -/
def readLines : List (List Char) → Except Fault TomlTable
  | [] => .ok []
  | line :: lines => do
    let entry ← readEntry line
    let table ← readLines lines
    match entry with
    | none => return table
    | some (key, n) =>
      if key ∈ table.map Prod.fst then .error (.repeatedKey key)
      else
        match value? n with
        | some value => return (key, value) :: table
        | none => .error (.outOfRange key)

/-- A byte order mark in front of the text is skipped. -/
def withoutMark : List Char → List Char
  | '\ufeff' :: cs => cs
  | cs => cs

def readTable (text : String) : Except Fault TomlTable :=
  readLines (splitLines (withoutMark text.toList))

/-- The number that a table gives for a key, if any. -/
def readField (table : TomlTable) (key : String) : Except Fault (Option Nat) :=
  match table.lookup key with
  | none => .ok none
  | some (.integer n) => if 0 ≤ n.toInt then .ok (some n.toInt.toNat) else .error (.outOfRange key)
  | some .other => .error (.outOfRange key)

def readConfig (table : TomlTable) : Except Fault TreeConfig :=
  match table.find? fun p => p.1 ≠ limitKey ∧ p.1 ≠ capacityKey with
  | some (key, _) => .error (.unknownKey key)
  | none => do
    let limit ← readField table limitKey
    let capacity ← readField table capacityKey
    return ⟨limit, capacity.getD 0⟩

/-- Writes settings; an absent limit is left out. -/
def toml (config : TreeConfig) : String :=
  let limit :=
    match config.entityLimit with
    | some limit => limitKey ++ " = " ++ toString limit ++ "\n"
    | none => ""
  limit ++ capacityKey ++ " = " ++ toString config.initialCapacity ++ "\n"

end TreeConfig

open TreeConfig

/-- TOML whose tables have integers only. -/
def TomlLibrary.plain : TomlLibrary where
  table text := (readTable text).toOption
  decode text := (readTable text >>= readConfig).mapError Fault.reason
  encode config :=
    let fits (n : Nat) : Bool := (n : Int) ≤ Int64.maxValue.toInt
    if config.entityLimit.all fits && fits config.initialCapacity then .ok config.toml
    else .error "a number does not fit into 64 bits with a sign"

end EntityForest
