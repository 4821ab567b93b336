import EntityForest.Proofs.Numerals
import Mathlib.Data.List.Forall2
import Mathlib.Data.List.TakeWhile

/-! # How keys are written

A key stands bare, in double quotes with escapes, or in single quotes without; different spellings
may name the same key. -/

namespace EntityForest.TreeConfig

/-- Nothing more of a run of characters with `p` stands in front. -/
def Stops (p : Char → Bool) (rest : List Char) : Prop := ∀ c ∈ rest.head?, p c = false

section Runs

variable {p : Char → Bool} {cs rest : List Char}

theorem takeWhile_append_of_stops (hcs : ∀ c ∈ cs, p c) (hrest : Stops p rest) :
    (cs ++ rest).takeWhile p = cs := by
  rw [List.takeWhile_append_of_pos hcs]
  cases rest with
  | nil => simp
  | cons c rest => simp [hrest c rfl]

theorem dropWhile_append_of_stops (hcs : ∀ c ∈ cs, p c) (hrest : Stops p rest) :
    (cs ++ rest).dropWhile p = rest := by
  rw [List.dropWhile_append_of_pos hcs]
  cases rest with
  | nil => rfl
  | cons c rest => simp [hrest c rfl]

end Runs

/-- Hexadecimal digits, and the character whose code they are. -/
def Code (cs : List Char) (c : Char) : Prop :=
  ∃ ds, List.Forall₂ (IsDigit 16) cs ds ∧ ds.foldl (16 * · + ·) 0 = c.toNat

theorem foldlM_digit?_eq_some_iff {cs : List Char} {n m : Nat} :
    cs.foldlM (fun n c => (digit? 16 c).map (16 * n + ·)) n = some m ↔
      ∃ ds, List.Forall₂ (IsDigit 16) cs ds ∧ ds.foldl (16 * · + ·) n = m := by
  induction cs generalizing n with
  | nil => simp [eq_comm]
  | cons c cs ih =>
    rw [List.foldlM_cons, Option.bind_eq_bind, Option.bind_eq_some_iff]
    simp only [Option.map_eq_some_iff, digit?_eq_some_iff (Nat.le_refl 16)]
    constructor
    · rintro ⟨_, ⟨d, hd, rfl⟩, h⟩
      obtain ⟨ds, hds, hm⟩ := ih.1 h
      exact ⟨d :: ds, .cons hd hds, hm⟩
    · rintro ⟨ds, hds, hm⟩
      cases hds with
      | cons hd hds => exact ⟨_, ⟨_, hd, rfl⟩, ih.2 ⟨_, hds, hm⟩⟩

theorem codePoint?_eq_some_iff {cs : List Char} {c : Char} :
    codePoint? cs = some c ↔ Code cs c := by
  have hcode : codePoint? cs = some c ↔
      cs.foldlM (fun n c => (digit? 16 c).map (16 * n + ·)) 0 = some c.toNat := by
    rw [codePoint?, Option.bind_eq_bind, Option.bind_eq_some_iff]
    constructor
    · rintro ⟨n, hn, hc⟩
      by_cases hvalid : n.isValidChar
      · rw [dif_pos hvalid] at hc
        rw [hn, ← Option.some.inj hc]
        rfl
      · rw [dif_neg hvalid] at hc
        exact absurd hc nofun
    · intro h
      have hvalid : c.toNat.isValidChar := c.valid
      have hchar : Char.ofNatAux c.toNat hvalid = c := Char.toNat_inj.1 rfl
      exact ⟨_, h, by rw [dif_pos hvalid, hchar]⟩
  exact hcode.trans foldlM_digit?_eq_some_iff

/-- What stands behind the backslash of an escape sequence, and the character that it means. -/
inductive Escape : List Char → Char → Prop where
  | backspace : Escape ['b'] '\x08'
  | tab : Escape ['t'] '\t'
  | feed : Escape ['n'] '\n'
  | page : Escape ['f'] '\x0c'
  | return : Escape ['r'] '\r'
  | quote : Escape ['\x22'] '\x22'
  | backslash : Escape ['\x5c'] '\x5c'
  | short {cs c} : cs.length = 4 → Code cs c → Escape ('u' :: cs) c
  | long {cs c} : cs.length = 8 → Code cs c → Escape ('U' :: cs) c

/-- What stands between double quotes, and the characters that it means. -/
inductive Quoted : List Char → List Char → Prop where
  | nil : Quoted [] []
  | char {c cs key} : isTextChar c → c ≠ '\x22' → c ≠ '\x5c' → Quoted cs key →
      Quoted (c :: cs) (c :: key)
  | escape {e c cs key} : Escape e c → Quoted cs key → Quoted ('\x5c' :: (e ++ cs)) (c :: key)

theorem Escape.readQuoted {e : List Char} {c : Char} (h : Escape e c) (read cs : List Char) :
    readQuoted read ('\x5c' :: (e ++ cs)) = readQuoted (c :: read) cs := by
  cases h with
  | backspace | tab | feed | page | «return» | quote | backslash => rfl
  | @short e _ hlen hc =>
    match e, hlen with
    | [_, _, _, _], _ => simp [TreeConfig.readQuoted, codePoint?_eq_some_iff.2 hc]
  | @long e _ hlen hc =>
    match e, hlen with
    | [_, _, _, _, _, _, _, _], _ => simp [TreeConfig.readQuoted, codePoint?_eq_some_iff.2 hc]

theorem readQuoted_char {c : Char} (hc : isTextChar c) (hquote : c ≠ '\x22') (hback : c ≠ '\x5c')
    (read cs : List Char) : readQuoted read (c :: cs) = readQuoted (c :: read) cs := by
  rw [readQuoted.eq_def]
  split <;> simp_all

theorem Quoted.readQuoted {cs key : List Char} (h : Quoted cs key) (read rest : List Char) :
    readQuoted read (cs ++ '\x22' :: rest) = some (read.reverse ++ key, rest) := by
  induction h generalizing read with
  | nil => simp [TreeConfig.readQuoted]
  | char hc hquote hback _ ih =>
    rw [List.cons_append, readQuoted_char hc hquote hback, ih]
    simp
  | escape he _ ih =>
    rw [List.cons_append, List.append_assoc, he.readQuoted, ih]
    simp

/-- With `read` in reverse before it, `line` is what a key comes to, a closing quote and `rest`. -/
def Closes (read line key rest : List Char) : Prop :=
  ∃ cs tail, Quoted cs tail ∧ line = cs ++ '\x22' :: rest ∧ key = read.reverse ++ tail

theorem Closes.escape {e read line key rest : List Char} {c : Char} (he : Escape e c)
    (h : Closes (c :: read) line key rest) : Closes read ('\x5c' :: (e ++ line)) key rest := by
  obtain ⟨cs, tail, hcs, rfl, rfl⟩ := h
  exact ⟨_, _, .escape he hcs, by simp, by simp⟩

theorem closes_of_readQuoted {read line key rest : List Char}
    (h : readQuoted read line = some (key, rest)) : Closes read line key rest := by
  fun_induction readQuoted read line
  -- The text ends, or what stands here may not stand in a key.
  case case1 | case4 | case6 | case14 | case16 => exact absurd h nofun
  case case2 =>
    obtain ⟨rfl, rfl⟩ := Prod.mk.inj (Option.some.inj h)
    exact ⟨[], [], .nil, rfl, (List.append_nil _).symm⟩
  case case3 hc ih => exact (ih h).escape (.short rfl (codePoint?_eq_some_iff.1 hc))
  case case5 hc ih => exact (ih h).escape (.long rfl (codePoint?_eq_some_iff.1 hc))
  case case7 ih => exact (ih h).escape .backspace
  case case8 ih => exact (ih h).escape .tab
  case case9 ih => exact (ih h).escape .feed
  case case10 ih => exact (ih h).escape .page
  case case11 ih => exact (ih h).escape .return
  case case12 ih => exact (ih h).escape .quote
  case case13 ih => exact (ih h).escape .backslash
  case case15 hquote _ _ _ _ _ _ _ _ _ hback htext ih =>
    obtain ⟨cs, tail, hcs, rfl, rfl⟩ := ih h
    exact ⟨_, _, .char htext hquote hback hcs, rfl, by simp⟩

theorem readQuoted_eq_some_iff {line key rest : List Char} :
    readQuoted [] line = some (key, rest) ↔ ∃ cs, Quoted cs key ∧ line = cs ++ '\x22' :: rest := by
  constructor
  · intro h
    obtain ⟨cs, tail, hcs, hline, rfl⟩ := closes_of_readQuoted h
    exact ⟨cs, hcs, hline⟩
  · rintro ⟨cs, hcs, rfl⟩
    exact hcs.readQuoted [] rest

/-- What stands between single quotes means itself. -/
def Literal (cs : List Char) : Prop := ∀ c ∈ cs, isTextChar c ∧ c ≠ '\x27'

theorem readLiteral_eq_some_iff {read line key rest : List Char} :
    readLiteral read line = some (key, rest) ↔
      ∃ cs, Literal cs ∧ line = cs ++ '\x27' :: rest ∧ key = read.reverse ++ cs := by
  induction line generalizing read with
  | nil => simp [readLiteral]
  | cons c line ih =>
    rw [readLiteral]
    split_ifs with hquote htext
    · constructor
      · intro h
        obtain ⟨rfl, rfl⟩ := Prod.mk.inj (Option.some.inj h)
        exact ⟨[], List.forall_mem_nil _, by rw [hquote, List.nil_append], (List.append_nil _).symm⟩
      · rintro ⟨cs, hcs, hline, rfl⟩
        rcases List.cons_eq_append_iff.1 hline with ⟨rfl, heq⟩ | ⟨cs, rfl, -⟩
        · rw [(List.cons.inj heq).2, List.append_nil]
        · exact absurd hquote (hcs c List.mem_cons_self).2
    · rw [ih]
      constructor
      · rintro ⟨cs, hcs, rfl, rfl⟩
        exact ⟨c :: cs, List.forall_mem_cons.2 ⟨⟨htext, hquote⟩, hcs⟩, rfl, by simp⟩
      · rintro ⟨cs, hcs, hline, rfl⟩
        rcases List.cons_eq_append_iff.1 hline with ⟨rfl, heq⟩ | ⟨cs, rfl, hrest⟩
        · exact absurd (List.cons.inj heq).1.symm hquote
        · exact ⟨cs, (List.forall_mem_cons.1 hcs).2, hrest, by simp⟩
    · refine ⟨nofun, ?_⟩
      rintro ⟨cs, hcs, hline, rfl⟩
      rcases List.cons_eq_append_iff.1 hline with ⟨rfl, heq⟩ | ⟨cs, rfl, -⟩
      · exact absurd (List.cons.inj heq).1.symm hquote
      · exact absurd (hcs c List.mem_cons_self).1 htext

/-- The spellings of a key. -/
inductive KeyText : List Char → String → Prop where
  | bare {cs} : cs ≠ [] → (∀ c ∈ cs, isBareKeyChar c) → KeyText cs (String.ofList cs)
  | quoted {cs key} : Quoted cs key → KeyText ('\x22' :: (cs ++ ['\x22'])) (String.ofList key)
  | literal {cs} : Literal cs → KeyText ('\x27' :: (cs ++ ['\x27'])) (String.ofList cs)

theorem readKey_bare {cs rest : List Char} (hne : cs ≠ []) (hcs : ∀ c ∈ cs, isBareKeyChar c)
    (hrest : Stops isBareKeyChar rest) : readKey (cs ++ rest) = some (String.ofList cs, rest) := by
  obtain ⟨c, tail, rfl⟩ := List.exists_cons_of_ne_nil hne
  have hc : isBareKeyChar c := hcs c List.mem_cons_self
  unfold readKey
  split
  · rename_i hline
    exact absurd ((List.cons.inj hline).1 ▸ hc) (by decide)
  · rename_i hline
    exact absurd ((List.cons.inj hline).1 ▸ hc) (by decide)
  · rw [takeWhile_append_of_stops hcs hrest, dropWhile_append_of_stops hcs hrest]

theorem KeyText.readKey {cs rest : List Char} {key : String} (h : KeyText cs key)
    (hrest : Stops isBareKeyChar rest) : readKey (cs ++ rest) = some (key, rest) := by
  cases h with
  | bare hne hcs => exact readKey_bare hne hcs hrest
  | @quoted cs key h =>
    have hread : readQuoted [] (cs ++ ['\x22'] ++ rest) = some (key, rest) :=
      readQuoted_eq_some_iff.2 ⟨cs, h, by rw [List.append_assoc, List.singleton_append]⟩
    exact congrArg (Option.map fun p => (String.ofList p.1, p.2)) hread
  | @literal cs h =>
    have hread : readLiteral [] (cs ++ ['\x27'] ++ rest) = some (cs, rest) :=
      readLiteral_eq_some_iff.2 ⟨cs, h, by rw [List.append_assoc, List.singleton_append], rfl⟩
    exact congrArg (Option.map fun p => (String.ofList p.1, p.2)) hread

theorem keyText_of_readKey {line rest : List Char} {key : String}
    (h : readKey line = some (key, rest)) : ∃ cs, KeyText cs key ∧ line = cs ++ rest := by
  unfold readKey at h
  split at h
  · obtain ⟨⟨key, rest⟩, hread, heq⟩ := Option.map_eq_some_iff.1 h
    obtain ⟨rfl, rfl⟩ := Prod.mk.inj heq
    obtain ⟨cs, hcs, rfl⟩ := readQuoted_eq_some_iff.1 hread
    exact ⟨_, .quoted hcs, by simp⟩
  · obtain ⟨⟨key, rest⟩, hread, heq⟩ := Option.map_eq_some_iff.1 h
    obtain ⟨rfl, rfl⟩ := Prod.mk.inj heq
    obtain ⟨cs, hcs, rfl, rfl⟩ := readLiteral_eq_some_iff.1 hread
    exact ⟨_, .literal hcs, by simp⟩
  · split at h
    · exact absurd h nofun
    · rename_i hne
      obtain ⟨rfl, rfl⟩ := Prod.mk.inj (Option.some.inj h)
      refine ⟨_, .bare hne fun c hc => ?_, List.takeWhile_append_dropWhile.symm⟩
      exact List.mem_takeWhile_imp hc

end EntityForest.TreeConfig
