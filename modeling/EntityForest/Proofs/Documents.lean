import EntityForest.Proofs.Keys

/-! # What a text of settings says

A text is a list of lines, and a line says nothing or gives a key an integer, whatever its layout.
The reader sees exactly that. -/

namespace EntityForest.TreeConfig

def Blanks (cs : List Char) : Prop := ∀ c ∈ cs, isBlank c

/-- Blanks, perhaps with a comment behind them. -/
inductive Trailing : List Char → Prop where
  | blanks {a} : Blanks a → Trailing a
  | comment {a text} : Blanks a → (∀ c ∈ text, isTextChar c) → Trailing (a ++ '#' :: text)

/-- What a line says: nothing, or that a key has an integer. -/
inductive LineText : List Char → Option (String × Int) → Prop where
  | empty {a} : Trailing a → LineText a none
  | entry {a k b c v d key n} : Blanks a → KeyText k key → Blanks b → Blanks c → Numeral v n →
      Trailing d → LineText (a ++ (k ++ (b ++ '=' :: (c ++ (v ++ d))))) (some (key, n))

theorem Blanks.dropWhile {a : List Char} (ha : Blanks a) {c : Char} (hc : isBlank c = false)
    (rest : List Char) : (a ++ c :: rest).dropWhile isBlank = c :: rest :=
  dropWhile_append_of_stops ha (by simpa [Stops] using hc)

/-- In front of what follows a run of blanks stand these blanks. -/
theorem exists_blanks {line rest : List Char} (h : line.dropWhile isBlank = rest) :
    ∃ a, Blanks a ∧ line = a ++ rest :=
  ⟨_, fun _ => List.mem_takeWhile_imp, by rw [← h, List.takeWhile_append_dropWhile]⟩

theorem Stops.of_blanks {p : Char → Bool} (hp : ∀ c, isBlank c → p c = false) {a rest : List Char}
    (ha : Blanks a) (hrest : Stops p rest) : Stops p (a ++ rest) := by
  cases a with
  | nil => exact hrest
  | cons c a => simpa [Stops] using hp c (ha c List.mem_cons_self)

theorem endsLine_iff {cs : List Char} : endsLine cs ↔ Trailing cs := by
  constructor
  · intro h
    unfold endsLine at h
    split at h
    · exact .blanks (List.dropWhile_eq_nil_iff.1 ‹_›)
    · obtain ⟨a, ha, rfl⟩ := exists_blanks ‹_›
      exact .comment ha (List.all_eq_true.1 h)
    · exact absurd h Bool.false_ne_true
  · rintro (h | ⟨h, htext⟩)
    · rw [endsLine, List.dropWhile_eq_nil_iff.2 h]
    · rw [endsLine, h.dropWhile (by decide)]
      exact List.all_eq_true.2 htext

theorem Trailing.stops {d : List Char} (h : Trailing d) : Stops (!endsValue ·) d := by
  have hblank : ∀ c, isBlank c → (!endsValue c) = false := fun c hc => by simp [endsValue, hc]
  cases h with
  | blanks h => exact List.append_nil d ▸ Stops.of_blanks hblank h (by simp [Stops])
  | comment h => exact Stops.of_blanks hblank h (by simp [Stops, endsValue])

theorem KeyText.exists_cons {k : List Char} {key : String} (h : KeyText k key) :
    ∃ c tail, k = c :: tail ∧ isBlank c = false ∧ c ≠ '#' := by
  cases h with
  | bare hne hk =>
    obtain ⟨c, tail, rfl⟩ := List.exists_cons_of_ne_nil hne
    have hc : isBareKeyChar c := hk c List.mem_cons_self
    refine ⟨c, tail, rfl, Bool.eq_false_iff.2 fun hblank => ?_, ?_⟩
    · simp only [isBlank, Bool.or_eq_true, decide_eq_true_eq] at hblank
      rcases hblank with rfl | rfl <;> exact absurd hc (by decide)
    · rintro rfl
      exact absurd hc (by decide)
  | quoted | literal => exact ⟨_, _, rfl, by decide, by decide⟩

section Key

variable {a k rest : List Char} {key : String}

theorem KeyText.dropWhile (hk : KeyText k key) (ha : Blanks a) :
    (a ++ (k ++ rest)).dropWhile isBlank = k ++ rest := by
  obtain ⟨c, tail, rfl, hc, -⟩ := hk.exists_cons
  exact ha.dropWhile hc _

theorem KeyText.endsLine (hk : KeyText k key) (ha : Blanks a) :
    endsLine (a ++ (k ++ rest)) = false := by
  rw [TreeConfig.endsLine, hk.dropWhile ha]
  obtain ⟨c, tail, rfl, -, hc⟩ := hk.exists_cons
  split
  · simp_all
  · simp_all
  · rfl

end Key

theorem Blanks.stops_bareKeyChar {b : List Char} (hb : Blanks b) {c : Char}
    (hc : isBareKeyChar c = false) (rest : List Char) : Stops isBareKeyChar (b ++ c :: rest) := by
  refine Stops.of_blanks (fun x hx => ?_) hb (by simpa [Stops] using hc)
  simp only [isBlank, Bool.or_eq_true, decide_eq_true_eq] at hx
  rcases hx with rfl | rfl <;> decide

theorem Numeral.dropWhile {v : List Char} {n : Int} (hv : Numeral v n) {c : List Char}
    (hc : Blanks c) (rest : List Char) : (c ++ (v ++ rest)).dropWhile isBlank = v ++ rest := by
  obtain ⟨x, tail, rfl⟩ := List.exists_cons_of_ne_nil hv.ne_nil
  have hx : isBlank x = false :=
    (Bool.or_eq_false_iff.1 (hv.endsValue_eq_false x List.mem_cons_self)).1
  exact hc.dropWhile hx _

/-- What `readEntry` makes of what stands behind a key. -/
def readValue (key : String) (rest : List Char) : Except Fault (Option (String × Int)) :=
  match rest.dropWhile isBlank with
  | '=' :: rest =>
    let value := rest.dropWhile isBlank
    match integer? (value.takeWhile (!endsValue ·)) with
    | some n =>
      if endsLine (value.dropWhile (!endsValue ·)) then .ok (some (key, n)) else .error .malformed
    | none => .error .malformed
  | _ => .error .malformed

theorem KeyText.readEntry {a k rest : List Char} {key : String} (hk : KeyText k key)
    (ha : Blanks a) (hrest : Stops isBareKeyChar rest) :
    readEntry (a ++ (k ++ rest)) = readValue key rest := by
  rw [TreeConfig.readEntry, hk.endsLine ha, if_neg Bool.false_ne_true, hk.dropWhile ha,
    hk.readKey hrest]
  rfl

/-- Behind a key stand a sign of equality and an integer, with blanks around, and the end. -/
theorem readValue_eq_ok_iff {key : String} {rest : List Char} {found : Option (String × Int)} :
    readValue key rest = .ok found ↔
      ∃ b c v d n, Blanks b ∧ Blanks c ∧ Numeral v n ∧ Trailing d ∧
        rest = b ++ '=' :: (c ++ (v ++ d)) ∧ found = some (key, n) := by
  constructor
  · intro h
    unfold readValue at h
    split at h
    · rename_i value heq
      dsimp only at h
      split at h
      · rename_i n hn
        split_ifs at h with hd
        obtain ⟨b, hb, hrest⟩ := exists_blanks heq
        obtain ⟨c, hc, hvalue⟩ := exists_blanks (rfl : value.dropWhile isBlank = _)
        rw [← @List.takeWhile_append_dropWhile _ (!endsValue ·) (value.dropWhile isBlank)] at hvalue
        exact ⟨b, c, _, _, n, hb, hc, integer?_eq_some_iff.1 hn, endsLine_iff.1 hd,
          by rw [hrest, ← hvalue], (Except.ok.inj h).symm⟩
      · exact absurd h nofun
    · exact absurd h nofun
  · rintro ⟨b, c, v, d, n, hb, hc, hv, hd, rfl, rfl⟩
    have hvalue : ∀ x ∈ v, (!endsValue x) = true := fun x hx => by
      rw [hv.endsValue_eq_false x hx, Bool.not_false]
    simp only [readValue, hb.dropWhile (by decide : isBlank '=' = false), hv.dropWhile hc,
      takeWhile_append_of_stops hvalue hd.stops, dropWhile_append_of_stops hvalue hd.stops,
      integer?_eq_some_iff.2 hv, endsLine_iff.2 hd, if_true]

theorem LineText.readEntry {line : List Char} {found : Option (String × Int)}
    (h : LineText line found) : readEntry line = .ok found := by
  cases h with
  | empty h => rw [TreeConfig.readEntry, if_pos (endsLine_iff.2 h)]
  | entry ha hk hb hc hv hd =>
    rw [hk.readEntry ha (hb.stops_bareKeyChar (by decide) _)]
    exact readValue_eq_ok_iff.2 ⟨_, _, _, _, _, hb, hc, hv, hd, rfl, rfl⟩

theorem lineText_of_readEntry {line : List Char} {found : Option (String × Int)}
    (h : readEntry line = .ok found) : LineText line found := by
  unfold readEntry at h
  split_ifs at h with hends
  · obtain rfl := Except.ok.inj h
    exact .empty (endsLine_iff.1 hends)
  · split at h
    · exact absurd h nofun
    · rename_i key rest hkey
      obtain ⟨a, ha, hline⟩ := exists_blanks (rfl : line.dropWhile isBlank = _)
      obtain ⟨k, hk, hrest⟩ := keyText_of_readKey hkey
      obtain ⟨b, c, v, d, n, hb, hc, hv, hd, rfl, rfl⟩ := readValue_eq_ok_iff.1 h
      rw [hline, hrest]
      exact .entry ha hk hb hc hv hd

/-- The lines of a text. A line feed ends a line, and so does one behind a carriage return. -/
inductive Lines : List Char → List (List Char) → Prop where
  | last {line} : '\n' ∉ line → Lines line [line]
  | feed {line cs lines} : '\n' ∉ line → line.getLast? ≠ some '\r' → Lines cs lines →
      Lines (line ++ '\n' :: cs) (line :: lines)
  | returnFeed {line cs lines} : '\n' ∉ line → Lines cs lines →
      Lines (line ++ '\r' :: '\n' :: cs) (line :: lines)

theorem splitLines_cons {c : Char} {cs line : List Char} {lines : List (List Char)}
    (hfeed : c ≠ '\n') (hreturn : c = '\r' → cs.head? ≠ some '\n')
    (h : splitLines cs = line :: lines) : splitLines (c :: cs) = (c :: line) :: lines := by
  rw [splitLines.eq_def]
  split <;> simp_all

theorem splitLines_append {line rest : List Char} {lines : List (List Char)} (hline : '\n' ∉ line)
    (hreturn : line.getLast? = some '\r' → rest.head? ≠ some '\n')
    (h : splitLines rest = [] :: lines) : splitLines (line ++ rest) = line :: lines := by
  induction line with
  | nil => exact h
  | cons c line ih =>
    rw [List.mem_cons, not_or] at hline
    refine splitLines_cons (Ne.symm hline.1) (fun hc => ?_) (ih hline.2 fun hlast => hreturn ?_)
    · -- A carriage return inside the line has no line feed behind it: the next is in the line too.
      cases line with
      | nil => exact hreturn (congrArg some hc)
      | cons x line => exact fun hx => hline.2 (Option.some.inj hx ▸ List.mem_cons_self)
    · rw [List.getLast?_cons, hlast]
      rfl

theorem Lines.splitLines {cs : List Char} {lines : List (List Char)} (h : Lines cs lines) :
    splitLines cs = lines := by
  induction h with
  | @last line hline =>
    have hend : TreeConfig.splitLines [] = [[]] := rfl
    have h := splitLines_append hline (fun _ h => absurd h (by decide)) hend
    rwa [List.append_nil] at h
  | feed hline hlast _ ih =>
    refine splitLines_append hline (fun h => absurd h hlast) ?_
    rw [TreeConfig.splitLines, ih]
  | returnFeed hline _ ih =>
    refine splitLines_append hline (fun _ h => absurd (Option.some.inj h) (by decide)) ?_
    rw [TreeConfig.splitLines, ih]

theorem lines_splitLines (cs : List Char) : Lines cs (splitLines cs) := by
  fun_induction splitLines cs
  case case1 => exact .last List.not_mem_nil
  case case2 ih => exact .returnFeed List.not_mem_nil ih
  case case3 ih => exact .feed List.not_mem_nil nofun ih
  case case4 h ih =>
    rw [h] at ih
    exact absurd ih nofun
  case case5 c cs hreturn hfeed line lines h ih =>
    rw [h] at ih
    have hc {line : List Char} (h : '\n' ∉ line) : '\n' ∉ c :: line :=
      List.not_mem_cons_of_ne_of_not_mem (Ne.symm hfeed) h
    cases ih with
    | last hline => exact .last (hc hline)
    | @feed _ cs _ hline hlast hrest =>
      refine .feed (hc hline) ?_ hrest
      cases line with
      | nil => exact fun h => hreturn cs (Option.some.inj h) rfl
      | cons x line => rwa [List.getLast?_cons_cons]
    | returnFeed hline hrest => exact .returnFeed (hc hline) hrest

/-- The keys that lines give an integer, from the first to the last. -/
inductive Says : List (List Char) → List (String × Int) → Prop where
  | nil : Says [] []
  | silent {line lines entries} : LineText line none → Says lines entries →
      Says (line :: lines) entries
  | entry {line lines e entries} : LineText line (some e) → Says lines entries →
      Says (line :: lines) (e :: entries)

/-- The text consists of lines with these entries; a byte order mark may stand in front. -/
def Document (text : String) (entries : List (String × Int)) : Prop :=
  ∃ lines, Lines (withoutMark text.toList) lines ∧ Says lines entries

theorem bind_eq_ok_iff {α β ε : Type} {x : Except ε α} {f : α → Except ε β} {b : β} :
    x >>= f = .ok b ↔ ∃ a, x = .ok a ∧ f a = .ok b := by
  cases x with
  | error fault => exact ⟨nofun, fun ⟨_, h, _⟩ => absurd h nofun⟩
  | ok a => exact ⟨fun h => ⟨a, rfl, h⟩, fun ⟨_, h, hf⟩ => Except.ok.inj h ▸ hf⟩

/-- An entry stands in a table as a signed number of 64 bits. -/
def Entered (e : String × Int) (p : String × TomlValue) : Prop :=
  ∃ m : Int64, m.toInt = e.2 ∧ p = (e.1, .integer m)

theorem value?_eq_some_iff {n : Int} {value : TomlValue} :
    value? n = some value ↔ ∃ m : Int64, m.toInt = n ∧ value = .integer m := by
  rw [value?]
  constructor
  · intro h
    split_ifs at h with hn
    exact ⟨_, hn, (Option.some.inj h).symm⟩
  · rintro ⟨m, rfl, rfl⟩
    rw [Int64.ofInt_toInt, if_pos rfl]

theorem readLines_silent {line : List Char} (h : LineText line none) (lines : List (List Char)) :
    readLines (line :: lines) = readLines lines := by
  rw [readLines, h.readEntry]
  change (readLines lines >>= fun table => .ok table) = _
  cases readLines lines <;> rfl

theorem readLines_entry {line : List Char} {key : String} {n : Int}
    (h : LineText line (some (key, n))) {lines : List (List Char)} {table : TomlTable} :
    readLines (line :: lines) = .ok table ↔
      ∃ value rest, value? n = some value ∧ readLines lines = .ok rest ∧
        key ∉ rest.map Prod.fst ∧ table = (key, value) :: rest := by
  rw [readLines, h.readEntry]
  change (readLines lines >>= _) = _ ↔ _
  rw [bind_eq_ok_iff]
  constructor
  · rintro ⟨rest, hrest, hentered⟩
    dsimp only at hentered
    split_ifs at hentered with hkey
    split at hentered
    · rename_i value hvalue
      exact ⟨value, rest, hvalue, hrest, hkey, (Except.ok.inj hentered).symm⟩
    · exact absurd hentered nofun
  · rintro ⟨value, rest, hvalue, hrest, hkey, rfl⟩
    refine ⟨rest, hrest, ?_⟩
    simp only [if_neg hkey, hvalue]
    rfl

/-- Reading lines gives what they say, if they have no key in common and all numbers fit. -/
theorem readLines_eq_ok_iff {lines : List (List Char)} {table : TomlTable} :
    readLines lines = .ok table ↔
      ∃ entries, Says lines entries ∧ List.Forall₂ Entered entries table ∧
        (table.map Prod.fst).Nodup := by
  induction lines generalizing table with
  | nil =>
    constructor
    · intro h
      obtain rfl := Except.ok.inj h
      exact ⟨[], .nil, .nil, List.nodup_nil⟩
    · rintro ⟨entries, hsaid, hentered, -⟩
      cases hsaid
      cases hentered
      rfl
  | cons line lines ih =>
    constructor
    · intro h
      obtain ⟨entry, hentry, -⟩ := bind_eq_ok_iff.1 h
      have hline := lineText_of_readEntry hentry
      cases entry with
      | none =>
        rw [readLines_silent hline] at h
        obtain ⟨entries, hsaid, hentered, hnodup⟩ := ih.1 h
        exact ⟨entries, .silent hline hsaid, hentered, hnodup⟩
      | some e =>
        obtain ⟨value, rest, hvalue, hrest, hkey, rfl⟩ := (readLines_entry hline).1 h
        obtain ⟨m, hm, rfl⟩ := value?_eq_some_iff.1 hvalue
        obtain ⟨entries, hsaid, hentered, hnodup⟩ := ih.1 hrest
        exact ⟨e :: entries, .entry hline hsaid, .cons ⟨m, hm, rfl⟩ hentered,
          List.nodup_cons.2 ⟨hkey, hnodup⟩⟩
    · rintro ⟨entries, hsaid, hentered, hnodup⟩
      cases hsaid with
      | silent hline hsaid =>
        rw [readLines_silent hline]
        exact ih.2 ⟨entries, hsaid, hentered, hnodup⟩
      | @entry _ _ e _ hline hsaid =>
        cases hentered with
        | cons hfirst hentered =>
          obtain ⟨m, hm, rfl⟩ := hfirst
          obtain ⟨hkey, hnodup⟩ := List.nodup_cons.1 hnodup
          exact (readLines_entry hline).2 ⟨.integer m, _, value?_eq_some_iff.2 ⟨m, hm, rfl⟩,
            ih.2 ⟨_, hsaid, hentered, hnodup⟩, hkey, rfl⟩

/-- The table that is read has the entries of the text. -/
theorem readTable_eq_ok_iff {text : String} {table : TomlTable} :
    readTable text = .ok table ↔
      ∃ entries, Document text entries ∧ List.Forall₂ Entered entries table ∧
        (table.map Prod.fst).Nodup := by
  rw [readTable, readLines_eq_ok_iff]
  constructor
  · rintro ⟨entries, hsaid, hentered⟩
    exact ⟨entries, ⟨_, lines_splitLines _, hsaid⟩, hentered⟩
  · rintro ⟨entries, ⟨lines, hlines, hsaid⟩, hentered⟩
    rw [hlines.splitLines]
    exact ⟨entries, hsaid, hentered⟩

end EntityForest.TreeConfig
