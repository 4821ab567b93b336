import EntityForest.Config.Toml
import Mathlib.Tactic.IntervalCases

/-! # How integers are written

An integer is decimal with an optional sign and no superfluous zero in front, or has one of the
bases 16, 8 and 2 and no sign; single underscores may stand between the digits. The reader accepts
exactly what is written so, with the number that it denotes, and reads back the digits that the
writer puts out. -/

namespace EntityForest.TreeConfig

/-- The digits from 10 on are letters of either case. -/
def IsDigit (base : Nat) (c : Char) (d : Nat) : Prop :=
  d < base ∧ (c = d.digitChar ∨ c = d.digitChar.toUpper)

theorem toNat_digitChar : ∀ d < 16, d.digitChar.toNat = if d < 10 then d + 48 else d + 87 := by
  decide

theorem toNat_toUpper_digitChar :
    ∀ d < 16, d.digitChar.toUpper.toNat = if d < 10 then d + 48 else d + 55 := by
  decide

theorem digit?_eq_some_iff {base : Nat} (hbase : base ≤ 16) {c : Char} {d : Nat} :
    digit? base c = some d ↔ IsDigit base c d := by
  have hval : c.val.toNat = c.toNat := rfl
  have hcode : d < 16 → ((c = d.digitChar ∨ c = d.digitChar.toUpper) ↔
      c.toNat = (if d < 10 then d + 48 else d + 87) ∨
        c.toNat = if d < 10 then d + 48 else d + 55) := fun hd => by
    rw [← toNat_digitChar d hd, ← toNat_toUpper_digitChar d hd, Char.toNat_inj, Char.toNat_inj]
  simp only [digit?, IsDigit, Char.le_def, UInt32.le_iff_toNat_le, hval]
  grind

/-- The signs, the underscore and the characters that end a value are no digits. -/
theorem IsDigit.ne {base : Nat} (hbase : base ≤ 16) {c x : Char} {d : Nat} (h : IsDigit base c d)
    (hx : x.toNat < 48 ∨ x.toNat = 95) : c ≠ x := by
  have hd : d < 16 := h.1.trans_le hbase
  have hlow := toNat_digitChar d hd
  have hup := toNat_toUpper_digitChar d hd
  rintro rfl
  rcases h.2 with rfl | rfl <;> grind

theorem IsDigit.endsValue_eq_false {base : Nat} (hbase : base ≤ 16) {c : Char} {d : Nat}
    (h : IsDigit base c d) : endsValue c = false := by
  have hspace : c ≠ ' ' := h.ne hbase (by decide)
  have htab : c ≠ '\t' := h.ne hbase (by decide)
  have hcomment : c ≠ '#' := h.ne hbase (by decide)
  simp [endsValue, isBlank, hspace, htab, hcomment]

/-- Digits with single underscores between them, and the number that they denote. -/
inductive Digits (base : Nat) : List Char → Nat → Prop where
  | single {c d} : IsDigit base c d → Digits base [c] d
  | next {cs n c d} : Digits base cs n → IsDigit base c d → Digits base (cs ++ [c]) (base * n + d)
  | group {cs n c d} : Digits base cs n → IsDigit base c d →
      Digits base (cs ++ ['_', c]) (base * n + d)

theorem digits?_digit {base : Nat} (hbase : base ≤ 16) {c : Char} {d : Nat} (h : IsDigit base c d)
    (n : Nat) (b : Bool) (cs : List Char) :
    digits? base n b (c :: cs) = digits? base (base * n + d) true cs := by
  rw [digits?, if_neg (h.ne hbase (by decide)), (digit?_eq_some_iff hbase).2 h]

theorem Digits.digits?_append {base : Nat} (hbase : base ≤ 16) {cs : List Char} {n : Nat}
    (h : Digits base cs n) (rest : List Char) :
    digits? base 0 false (cs ++ rest) = digits? base n true rest := by
  induction h generalizing rest with
  | single hc => rw [List.singleton_append, digits?_digit hbase hc, Nat.mul_zero, Nat.zero_add]
  | next _ hc ih => rw [List.append_assoc, ih, List.singleton_append, digits?_digit hbase hc]
  | group _ hc ih =>
    rw [List.append_assoc, ih]
    exact digits?_digit hbase hc _ false rest

/-- What `digits?` has read when it stands before the next character. -/
inductive Reading (base : Nat) : List Char → Nat → Bool → Prop where
  | start : Reading base [] 0 false
  | digit {cs n} : Digits base cs n → Reading base cs n true
  | gap {cs n} : Digits base cs n → Reading base (cs ++ ['_']) n false

theorem Reading.next {base : Nat} {read : List Char} {n : Nat} {b : Bool}
    (h : Reading base read n b) {c : Char} {d : Nat} (hc : IsDigit base c d) :
    Digits base (read ++ [c]) (base * n + d) := by
  cases h with
  | start => simpa using Digits.single hc
  | digit h => exact .next h hc
  | gap h => simpa using Digits.group h hc

theorem Reading.digits {base : Nat} (hbase : base ≤ 16) {read cs : List Char} {n m : Nat} {b : Bool}
    (h : Reading base read n b) (hcs : digits? base n b cs = some m) :
    Digits base (read ++ cs) m := by
  induction cs generalizing read n b with
  | nil =>
    cases h with
    | digit h => simpa [digits?, ← (Option.some.inj hcs : n = m)] using h
    | start | gap => exact absurd hcs (by simp [digits?])
  | cons c cs ih =>
    rw [← List.singleton_append, ← List.append_assoc]
    rw [digits?] at hcs
    split_ifs at hcs with hc hb
    · -- An underscore is read behind a digit only, and leaves a gap that a digit must close.
      cases h with
      | digit h => exact ih (hc ▸ .gap h) hcs
      | start | gap => exact absurd hb (by simp)
    · cases hd : digit? base c with
      | none => simp [hd] at hcs
      | some d =>
        rw [hd] at hcs
        exact ih (.digit (h.next ((digit?_eq_some_iff hbase).1 hd))) hcs

theorem digits?_eq_some_iff {base : Nat} (hbase : base ≤ 16) {cs : List Char} {n : Nat} :
    digits? base 0 false cs = some n ↔ Digits base cs n := by
  refine ⟨Reading.start.digits hbase, fun h => ?_⟩
  rw [← List.append_nil cs, h.digits?_append hbase]
  rfl

theorem Digits.exists_digit {base : Nat} {cs : List Char} {n : Nat} (h : Digits base cs n) :
    ∃ c d, cs.head? = some c ∧ IsDigit base c d := by
  induction h with
  | @single c d hc => exact ⟨c, d, rfl, hc⟩
  | next _ _ ih | group _ _ ih =>
    obtain ⟨c, d, hhead, hc⟩ := ih
    exact ⟨c, d, by rw [List.head?_append, hhead, Option.some_or], hc⟩

theorem Digits.eq_or_digit {base : Nat} {cs : List Char} {n : Nat} (h : Digits base cs n) :
    ∀ c ∈ cs, c = '_' ∨ ∃ d, IsDigit base c d := by
  induction h with
  | single hc => exact List.forall_mem_singleton.2 (.inr ⟨_, hc⟩)
  | next _ hc ih =>
    exact List.forall_mem_append.2 ⟨ih, List.forall_mem_singleton.2 (.inr ⟨_, hc⟩)⟩
  | group _ hc ih =>
    exact List.forall_mem_append.2 ⟨ih,
      List.forall_mem_cons.2 ⟨.inl rfl, List.forall_mem_singleton.2 (.inr ⟨_, hc⟩)⟩⟩

theorem Digits.endsValue_eq_false {base : Nat} (hbase : base ≤ 16) {cs : List Char} {n : Nat}
    (h : Digits base cs n) : ∀ c ∈ cs, endsValue c = false := by
  intro c hc
  rcases h.eq_or_digit c hc with rfl | ⟨d, hd⟩
  · rfl
  · exact hd.endsValue_eq_false hbase

/-- Decimal digits of which the first is zero only if it is the only one. -/
structure Decimal (cs : List Char) (n : Nat) : Prop where
  digits : Digits 10 cs n
  eq_of_zero : cs.head? = some '0' → cs = ['0']

theorem decimal?_eq_some_iff {cs : List Char} {n : Nat} : decimal? cs = some n ↔ Decimal cs n := by
  have hread : digits? 10 0 false cs = some n ↔ Digits 10 cs n := digits?_eq_some_iff (by decide)
  unfold decimal?
  split
  · have hzero : digits? 10 0 false ['0'] = some 0 := rfl
    exact ⟨fun h => ⟨hread.1 (hzero.trans h), fun _ => rfl⟩,
      fun h => hzero.symm.trans (hread.2 h.digits)⟩
  · rename_i rest hrest
    exact ⟨nofun, fun h => absurd (h.eq_of_zero rfl) (by simpa using hrest)⟩
  · rename_i hone hzero
    refine ⟨fun h => ⟨hread.1 h, fun hhead => ?_⟩, fun h => hread.2 h.digits⟩
    obtain ⟨rest, rfl⟩ := List.head?_eq_some_iff.1 hhead
    exact absurd rfl (hzero rest)

/-- The notations of an integer. -/
inductive Numeral : List Char → Int → Prop where
  | plain {cs n} : Decimal cs n → Numeral cs (Int.ofNat n)
  | plus {cs n} : Decimal cs n → Numeral ('+' :: cs) (Int.ofNat n)
  | minus {cs n} : Decimal cs n → Numeral ('-' :: cs) (-Int.ofNat n)
  | hexadecimal {cs n} : Digits 16 cs n → Numeral ('0' :: 'x' :: cs) (Int.ofNat n)
  | octal {cs n} : Digits 8 cs n → Numeral ('0' :: 'o' :: cs) (Int.ofNat n)
  | binary {cs n} : Digits 2 cs n → Numeral ('0' :: 'b' :: cs) (Int.ofNat n)

theorem Decimal.integer?_eq {cs : List Char} {n : Nat} (h : Decimal cs n) :
    integer? cs = some (Int.ofNat n) := by
  obtain ⟨c, d, hhead, hc⟩ := h.digits.exists_digit
  have hzero := h.eq_of_zero
  unfold integer?
  split
  -- A base would come after a zero that is not alone, a sign in the place of the first digit.
  · exact absurd (hzero rfl) (by simp)
  · exact absurd (hzero rfl) (by simp)
  · exact absurd (hzero rfl) (by simp)
  · exact absurd (Option.some.inj hhead).symm (hc.ne (by decide) (by decide))
  · exact absurd (Option.some.inj hhead).symm (hc.ne (by decide) (by decide))
  · rw [decimal?_eq_some_iff.2 h, Option.map_some]

theorem integer?_eq_some_iff {cs : List Char} {n : Int} : integer? cs = some n ↔ Numeral cs n := by
  constructor
  · intro h
    unfold integer? at h
    split at h <;> obtain ⟨m, hm, rfl⟩ := Option.map_eq_some_iff.1 h
    · exact .hexadecimal ((digits?_eq_some_iff (by decide)).1 hm)
    · exact .octal ((digits?_eq_some_iff (by decide)).1 hm)
    · exact .binary ((digits?_eq_some_iff (by decide)).1 hm)
    · exact .plus (decimal?_eq_some_iff.1 hm)
    · exact .minus (decimal?_eq_some_iff.1 hm)
    · exact .plain (decimal?_eq_some_iff.1 hm)
  · rintro (h | h | h | h | h | h)
    · exact h.integer?_eq
    · rw [integer?, decimal?_eq_some_iff.2 h, Option.map_some]
    · rw [integer?, decimal?_eq_some_iff.2 h, Option.map_some]
    · rw [integer?, (digits?_eq_some_iff (by decide)).2 h, Option.map_some]
    · rw [integer?, (digits?_eq_some_iff (by decide)).2 h, Option.map_some]
    · rw [integer?, (digits?_eq_some_iff (by decide)).2 h, Option.map_some]

theorem Numeral.endsValue_eq_false {cs : List Char} {n : Int} (h : Numeral cs n) :
    ∀ c ∈ cs, endsValue c = false := by
  cases h with
  | plain h => exact h.digits.endsValue_eq_false (by decide)
  | plus h | minus h =>
    exact List.forall_mem_cons.2 ⟨rfl, h.digits.endsValue_eq_false (by decide)⟩
  | hexadecimal h | octal h | binary h =>
    exact List.forall_mem_cons.2 ⟨rfl, List.forall_mem_cons.2 ⟨rfl,
      h.endsValue_eq_false (by decide)⟩⟩

theorem Numeral.ne_nil {cs : List Char} {n : Int} (h : Numeral cs n) : cs ≠ [] := by
  cases h with
  | plain h =>
    obtain ⟨c, -, hhead, -⟩ := h.digits.exists_digit
    rintro rfl
    exact absurd hhead nofun
  | plus | minus | hexadecimal | octal | binary => exact List.cons_ne_nil _ _

/-- The digits of a number, written without a sign, denote it. -/
theorem digits_toDigits (n : Nat) : Digits 10 (Nat.toDigits 10 n) n := by
  induction n using Nat.strong_induction_on with
  | h n ih =>
    rcases Nat.lt_or_ge n 10 with hn | hn
    · rw [Nat.toDigits_of_lt_base hn]
      exact .single ⟨hn, .inl rfl⟩
    · rw [Nat.toDigits_of_base_le (by decide) hn]
      have h := Digits.next (ih (n / 10) (by omega))
        (⟨Nat.mod_lt n (by decide), .inl rfl⟩ : IsDigit 10 (n % 10).digitChar (n % 10))
      rwa [Nat.div_add_mod] at h

theorem head?_toDigits_ne {n : Nat} (hn : 0 < n) : (Nat.toDigits 10 n).head? ≠ some '0' := by
  induction n using Nat.strong_induction_on with
  | h n ih =>
    rcases Nat.lt_or_ge n 10 with h | h
    · rw [Nat.toDigits_of_lt_base h]
      interval_cases n <;> decide
    · obtain ⟨c, d, hhead, -⟩ := (digits_toDigits (n / 10)).exists_digit
      rw [Nat.toDigits_of_base_le (by decide) h, List.head?_append, hhead, Option.some_or, ← hhead]
      exact ih (n / 10) (by omega) (by omega)

theorem numeral_toDigits (n : Nat) : Numeral (Nat.toDigits 10 n) (Int.ofNat n) := by
  refine .plain ⟨digits_toDigits n, fun h => ?_⟩
  rcases Nat.eq_zero_or_pos n with rfl | hn
  · rfl
  · exact absurd h (head?_toDigits_ne hn)

end EntityForest.TreeConfig
