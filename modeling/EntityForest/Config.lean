import EntityForest.Error

/-! Settings of a tree of entities. They can be given as TOML; how that is read and written is left
to a library. -/

namespace EntityForest

structure TreeConfig where
  /-- The greatest number of entities the tree may hold; `none` for no limit. -/
  entityLimit : Option Nat
  /-- Room that each container reserves when it is made. This is all that it is for: a container
  with less room works in the same way. -/
  initialCapacity : Nat
  deriving DecidableEq, Inhabited

/-- A value in a TOML table. Integers are signed numbers of 64 bits; values that are none are not
told apart. -/
inductive TomlValue where
  | integer (n : Int64)
  | other
  deriving DecidableEq

/-- The keys of a TOML table with their values. -/
abbrev TomlTable := List (String × TomlValue)

/-- A library that reads and writes TOML, as far as settings use it. -/
structure TomlLibrary where
  /-- The table that a text stands for, if it is TOML at all. -/
  table : String → Option TomlTable
  /-- The settings that a text gives, or what is wrong with it. -/
  decode : String → Except String TreeConfig
  encode : TreeConfig → Except String String

/-! ### Settings in tables -/

namespace TreeConfig

def limitKey : String := "entity_limit"
def capacityKey : String := "initial_capacity"

/-- The table of some settings. An absent limit is left out. -/
def fields (config : TreeConfig) : TomlTable :=
  (config.entityLimit.map fun limit => (limitKey, .integer (.ofNat limit))).toList ++
    [(capacityKey, .integer (.ofNat config.initialCapacity))]

/-- Every number of the settings fits into 64 bits with a sign. -/
structure Fits (config : TreeConfig) : Prop where
  limit : ∀ n ∈ config.entityLimit, (n : Int) ≤ Int64.maxValue.toInt
  capacity : (config.initialCapacity : Int) ≤ Int64.maxValue.toInt

end TreeConfig

namespace TomlTable

/-- What a table gives for a key: nothing, or an integer that is not negative. -/
inductive Gives (table : TomlTable) (key : String) : Option Nat → Prop
  | absent (h : key ∉ table.map Prod.fst) : Gives table key none
  | present {m : Int64} {n : Nat} (h : (key, .integer m) ∈ table) (value : m.toInt = n) :
      Gives table key (some n)

/-- The settings that a table stands for. There are no other keys, and what is not given is as in
the default settings. -/
structure Denotes (table : TomlTable) (config : TreeConfig) : Prop where
  known : ∀ p ∈ table, p.1 = TreeConfig.limitKey ∨ p.1 = TreeConfig.capacityKey
  limit : ∃ n, table.Gives TreeConfig.limitKey n ∧
    config.entityLimit = n.or (default : TreeConfig).entityLimit
  capacity : ∃ n, table.Gives TreeConfig.capacityKey n ∧
    config.initialCapacity = n.getD (default : TreeConfig).initialCapacity

end TomlTable

/-- How a library for TOML works. A key stands in a table at most once. A text that is not TOML
gives no settings, and another one gives those that its table denotes, if there are any. Settings
can be written unless a number is too great, and what is written is a text with their table. -/
structure TomlLibrary.Lawful (toml : TomlLibrary) : Prop where
  nodup_keys : ∀ {text table}, toml.table text = some table → (table.map Prod.fst).Nodup
  decode_malformed : ∀ {text}, toml.table text = none → ∃ reason, toml.decode text = .error reason
  decode_table : ∀ {text table}, toml.table text = some table →
    ∀ config, toml.decode text = .ok config ↔ table.Denotes config
  encode_ok_iff : ∀ config, (∃ text, toml.encode config = .ok text) ↔ config.Fits
  encode_table : ∀ {config text}, toml.encode config = .ok text →
    ∃ table, toml.table text = some table ∧ table.Perm config.fields

namespace TreeConfig

def unbounded : TreeConfig := ⟨none, 0⟩

/-- The limit, if admitting `incoming` entities beside `present` ones would exceed it. -/
def overLimit (config : TreeConfig) (present incoming : Nat) : Option Nat :=
  config.entityLimit.filter (· < present + incoming)

/-! ### Reading settings -/

/-- A tree that may hold nothing is not a useful setting. -/
def validate (config : TreeConfig) : Except ContainerError Unit :=
  if config.entityLimit = some 0 then
    .error (.invalidConfig "entity_limit must be greater than zero")
  else .ok ()

/-- Reads and validates settings. -/
def fromToml (toml : TomlLibrary) (text : String) : Except ContainerError TreeConfig := do
  let config ← (toml.decode text).mapError .invalidConfig
  config.validate
  return config

/-- Reads settings from a file with this text, if the file can be read. -/
def load (toml : TomlLibrary) (path : String) (contents : Except String String) :
    Except ContainerError TreeConfig := do
  let text ← contents.mapError fun failure => .invalidConfig (path ++ ": " ++ failure)
  fromToml toml text

def describe (config : TreeConfig) : String :=
  Text.record "TreeConfig" [("entity_limit", Text.optional (config.entityLimit.map toString)),
    ("initial_capacity", toString config.initialCapacity)]

end TreeConfig

end EntityForest
