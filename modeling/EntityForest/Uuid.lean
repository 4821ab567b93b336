import EntityForest.Text.Hex

/-! Identities of entities and containers: 128-bit numbers, written as 32 hexadecimal digits in
groups of 8, 4, 4, 4 and 12. -/

namespace EntityForest

/-- A 128-bit identity. Entities and the containers they own share one identity. -/
structure Uuid where
  bits : BitVec 128
  deriving DecidableEq

namespace Uuid

def ofNat (n : Nat) : Uuid := ⟨BitVec.ofNat 128 n⟩

def toNat (u : Uuid) : Nat := u.bits.toNat

/-- The all-zero identity, which no entity may carry. -/
def nil : Uuid := ⟨0⟩

instance : Inhabited Uuid := ⟨nil⟩

instance : LT Uuid := ⟨fun a b => a.toNat < b.toNat⟩
instance : LE Uuid := ⟨fun a b => a.toNat ≤ b.toNat⟩
instance (a b : Uuid) : Decidable (a < b) := inferInstanceAs (Decidable (a.toNat < b.toNat))
instance (a b : Uuid) : Decidable (a ≤ b) := inferInstanceAs (Decidable (a.toNat ≤ b.toNat))

/-- Identities are ordered as unsigned numbers. -/
def compare (a b : Uuid) : Ordering := Ord.compare a.toNat b.toNat

instance : Ord Uuid := ⟨compare⟩

@[ext] theorem ext {a b : Uuid} (h : a.toNat = b.toNat) : a = b := by
  cases a; cases b
  simpa [toNat, BitVec.toNat_inj] using h

/-- The version field: the first digit of the third group. -/
def version (u : Uuid) : Nat := (u.toNat >>> 76) % 16

/-- The `n`-th identity of version 4: the version and variant bits are set and `n` fills the low
bits, so different small `n` give different identities. -/
def versionFour (n : Nat) : Uuid := ofNat (0x3f000000_0000_4000_8000_000000000000 + n)

/-- The hyphenated text in lower case. -/
def text (u : Uuid) : String :=
  let n := u.toNat
  let group (low count : Nat) : String := Text.paddedHex count (n >>> (4 * low))
  "-".intercalate [group 24 8, group 20 4, group 16 4, group 12 4, group 0 12]

instance : ToString Uuid := ⟨text⟩

private def digitValue? (c : Char) : Option Nat :=
  if '0' ≤ c ∧ c ≤ '9' then some (c.toNat - '0'.toNat)
  else if 'a' ≤ c ∧ c ≤ 'f' then some (c.toNat - 'a'.toNat + 10)
  else if 'A' ≤ c ∧ c ≤ 'F' then some (c.toNat - 'A'.toNat + 10)
  else none

private def number? (cs : List Char) : Option Nat :=
  cs.foldlM (fun n c => (digitValue? c).map (16 * n + ·)) 0

/-- Reads the hyphenated text, in either case. -/
def parse? (s : String) : Option Uuid := do
  let groups := s.splitOn "-"
  guard (groups.map String.length = [8, 4, 4, 4, 12])
  let n ← number? (groups.flatMap String.toList)
  return ofNat n

end Uuid

end EntityForest
