import EntityForest.Proofs.Documents
import Mathlib.Data.List.Nodup

/-! # Settings written and read back

Whatever settings a text gives, they are written as a text that gives the same ones. That a number
is read from 64 bits with a sign is enough to write it, and what is left out is read as it was. This
holds of any library that reads and writes TOML as it should, and the plain kind of TOML is one. -/

namespace EntityForest

open TreeConfig

/-! ## Tables of settings -/

namespace TomlTable

variable {table table' : TomlTable} {key : String} {config : TreeConfig}

theorem Gives.of_perm {n : Option Nat} (h : table.Gives key n) (hperm : table.Perm table') :
    table'.Gives key n := by
  cases h with
  | absent h => exact .absent fun hmem => h ((hperm.map _).mem_iff.2 hmem)
  | present h value => exact .present (hperm.mem_iff.1 h) value

theorem Denotes.of_perm (h : table.Denotes config) (hperm : table.Perm table') :
    table'.Denotes config := by
  obtain ⟨n, hlimit, hconfig⟩ := h.limit
  obtain ⟨m, hcapacity, hconfig'⟩ := h.capacity
  exact ⟨fun p hp => h.known p (hperm.mem_iff.2 hp), ⟨n, hlimit.of_perm hperm, hconfig⟩,
    m, hcapacity.of_perm hperm, hconfig'⟩

/-- An integer of a table has room in 64 bits with a sign. -/
theorem Gives.le {n : Nat} (h : table.Gives key (some n)) : (n : Int) ≤ Int64.maxValue.toInt := by
  cases h with
  | @present m _ _ value => exact value ▸ m.toInt_le

theorem Denotes.fits (h : table.Denotes config) : config.Fits := by
  obtain ⟨limit, hlimit, hlimit'⟩ := h.limit
  obtain ⟨capacity, hcapacity, hcapacity'⟩ := h.capacity
  constructor
  · rintro n hn
    rw [hlimit'] at hn
    cases limit with
    | none => exact absurd hn nofun
    | some m => exact Option.some.inj hn ▸ hlimit.le
  · rw [hcapacity']
    cases capacity with
    | none => decide
    | some m => exact hcapacity.le

/-- A key that has an integer is given this and nothing else. -/
theorem Gives.eq_some (nodup : (table.map Prod.fst).Nodup) {m : Int64}
    (hmem : (key, .integer m) ∈ table) {n : Option Nat} (h : table.Gives key n) :
    ∃ k : Nat, n = some k ∧ m.toInt = k := by
  cases h with
  | absent habsent => exact absurd (List.mem_map_of_mem hmem) habsent
  | @present m' k hmem' value =>
    have hsame := List.inj_on_of_nodup_map nodup hmem hmem' rfl
    cases hsame
    exact ⟨k, rfl, value⟩

end TomlTable

/-- A number that fits into 64 bits with a sign is kept there. -/
theorem toInt_ofNat_of_le {n : Nat} (h : (n : Int) ≤ Int64.maxValue.toInt) :
    (Int64.ofNat n).toInt = n := by
  rw [Int64.toInt_maxValue] at h
  exact Int64.toInt_ofNat_of_lt (by omega)

/-- The table of settings that can be written stands for these settings. -/
theorem TreeConfig.Fits.denotes_fields {config : TreeConfig} (h : config.Fits) :
    config.fields.Denotes config := by
  obtain ⟨limit, capacity⟩ := config
  have hcapacity : (Int64.ofNat capacity).toInt = capacity := toInt_ofNat_of_le h.capacity
  have hlast : (capacityKey, TomlValue.integer (.ofNat capacity)) ∈
      (⟨limit, capacity⟩ : TreeConfig).fields := List.mem_append_right _ List.mem_cons_self
  refine ⟨fun p hp => ?_, ?_, some capacity, .present hlast hcapacity, rfl⟩
  · rcases List.mem_append.1 hp with hp | hp
    · obtain ⟨n, -, rfl⟩ := Option.map_eq_some_iff.1 (Option.mem_toList.1 hp)
      exact .inl rfl
    · exact .inr (congrArg Prod.fst (List.mem_singleton.1 hp))
  · cases limit with
    | none =>
      have habsent : limitKey ∉ [capacityKey] := by decide
      exact ⟨none, .absent habsent, rfl⟩
    | some n =>
      exact ⟨some n, .present List.mem_cons_self (toInt_ofNat_of_le (h.limit n rfl)), rfl⟩

/-! ## Any library -/

namespace TreeConfig

section Library

variable {toml : TomlLibrary} {text : String} {config : TreeConfig}

theorem fromToml_of_error {reason : String} (h : toml.decode text = .error reason) :
    fromToml toml text = .error (.invalidConfig reason) := by
  rw [fromToml, h]
  rfl

theorem fromToml_of_ok (h : toml.decode text = .ok config) :
    fromToml toml text = config.validate.map fun _ => config := by
  rw [fromToml, h]
  change (config.validate >>= fun _ => .ok config) = _
  cases config.validate <;> rfl

theorem fromToml_eq_ok_iff :
    fromToml toml text = .ok config ↔
      toml.decode text = .ok config ∧ config.entityLimit ≠ some 0 := by
  cases hdecode : toml.decode text with
  | error reason =>
    rw [fromToml_of_error hdecode]
    exact ⟨nofun, fun h => absurd h.1 nofun⟩
  | ok found =>
    rw [fromToml_of_ok hdecode, validate]
    split_ifs with hzero
    · refine ⟨nofun, fun h => absurd hzero ?_⟩
      rw [Except.ok.inj h.1]
      exact h.2
    · refine ⟨fun h => ?_, fun h => congrArg Except.ok (Except.ok.inj h.1)⟩
      obtain rfl := Except.ok.inj h
      exact ⟨rfl, hzero⟩

/-- What is not accepted is refused as invalid settings. -/
theorem exists_invalidConfig (h : ∀ config, fromToml toml text ≠ .ok config) :
    ∃ reason, fromToml toml text = .error (.invalidConfig reason) := by
  cases hdecode : toml.decode text with
  | error reason => exact ⟨reason, fromToml_of_error hdecode⟩
  | ok config =>
    have hrefused := h config
    rw [fromToml_of_ok hdecode, validate] at hrefused ⊢
    split_ifs at hrefused ⊢
    · exact ⟨_, rfl⟩
    · exact absurd rfl hrefused

variable (lawful : toml.Lawful)

include lawful

/-- Accepted are the texts whose table stands for settings, unless they are those of a tree without
room. -/
theorem fromToml_eq_ok_iff_denotes :
    fromToml toml text = .ok config ↔
      (∃ table, toml.table text = some table ∧ table.Denotes config) ∧
        config.entityLimit ≠ some 0 := by
  rw [fromToml_eq_ok_iff]
  refine and_congr_left fun _ => ?_
  cases htable : toml.table text with
  | none =>
    obtain ⟨reason, hreason⟩ := lawful.decode_malformed htable
    rw [hreason]
    exact ⟨nofun, fun ⟨_, h, _⟩ => absurd h nofun⟩
  | some table =>
    rw [lawful.decode_table htable]
    exact ⟨fun h => ⟨table, rfl, h⟩, fun ⟨_, h, hdenotes⟩ => Option.some.inj h ▸ hdenotes⟩

/-- A text is accepted exactly if its table stands for settings whose limit is not zero, and these
can be written and read again. Any other text is refused as invalid, above all one with a key of
another name and one that gives the limit as zero. -/
theorem configurations_survive_round_trip (text : String) :
    (∀ config, fromToml toml text = .ok config ↔
      (∃ table, toml.table text = some table ∧ table.Denotes config) ∧
        config.entityLimit ≠ some 0) ∧
    (∀ config, fromToml toml text = .ok config → config.entityLimit ≠ some 0 ∧
      ∃ again, toml.encode config = .ok again ∧ fromToml toml again = .ok config) ∧
    ((∀ config, fromToml toml text ≠ .ok config) →
      ∃ reason, fromToml toml text = .error (.invalidConfig reason)) ∧
    ∀ table, toml.table text = some table →
      (∃ p ∈ table, p.1 ≠ limitKey ∧ p.1 ≠ capacityKey) ∨ (limitKey, .integer 0) ∈ table →
      ∃ reason, fromToml toml text = .error (.invalidConfig reason) := by
  refine ⟨fun _ => fromToml_eq_ok_iff_denotes lawful, fun config hconfig => ?_,
    exists_invalidConfig, fun table htable hwrong => ?_⟩
  · obtain ⟨⟨table, -, hdenotes⟩, hzero⟩ := (fromToml_eq_ok_iff_denotes lawful).1 hconfig
    obtain ⟨again, hwritten⟩ := (lawful.encode_ok_iff config).2 hdenotes.fits
    obtain ⟨table', htable', hfields⟩ := lawful.encode_table hwritten
    refine ⟨hzero, again, hwritten, (fromToml_eq_ok_iff_denotes lawful).2 ⟨⟨table', htable', ?_⟩,
      hzero⟩⟩
    exact hdenotes.fits.denotes_fields.of_perm hfields.symm
  · refine exists_invalidConfig fun config hconfig => ?_
    obtain ⟨⟨table', htable', hdenotes⟩, hzero⟩ := (fromToml_eq_ok_iff_denotes lawful).1 hconfig
    obtain rfl := Option.some.inj (htable.symm.trans htable')
    rcases hwrong with ⟨p, hp, hlimit, hcapacity⟩ | hmem
    · rcases hdenotes.known p hp with h | h
      · exact hlimit h
      · exact hcapacity h
    · obtain ⟨n, hgiven, hlimit⟩ := hdenotes.limit
      obtain ⟨k, rfl, hk⟩ := hgiven.eq_some (lawful.nodup_keys htable) hmem
      obtain rfl : k = 0 := by
        have hnone : (0 : Int64).toInt = 0 := rfl
        omega
      exact hzero hlimit

end Library

/-! ## Plain TOML -/

section Reader

variable {table : TomlTable} {key : String}

theorem lookup_eq_none_iff : table.lookup key = none ↔ key ∉ table.map Prod.fst := by
  rw [List.lookup_eq_none_iff]
  constructor
  · intro h hmem
    obtain ⟨p, hp, rfl⟩ := List.mem_map.1 hmem
    simpa using h p hp
  · intro h p hp
    exact bne_iff_ne.2 fun heq => h (heq ▸ List.mem_map_of_mem hp)

theorem mem_of_lookup {value : TomlValue} (h : table.lookup key = some value) :
    (key, value) ∈ table := by
  obtain ⟨front, rest, rfl, -⟩ := List.lookup_eq_some_iff.1 h
  exact List.mem_append_right _ List.mem_cons_self

theorem readField_eq_ok_iff (nodup : (table.map Prod.fst).Nodup) {n : Option Nat} :
    readField table key = .ok n ↔ table.Gives key n := by
  unfold readField
  cases hfound : table.lookup key with
  | none =>
    have habsent := lookup_eq_none_iff.1 hfound
    constructor
    · intro h
      obtain rfl := Except.ok.inj h
      exact .absent habsent
    · intro h
      cases h with
      | absent => rfl
      | present hmem => exact absurd (List.mem_map_of_mem hmem) habsent
  | some value =>
    have hmem := mem_of_lookup hfound
    cases value with
    | integer m =>
      dsimp only
      constructor
      · intro h
        split_ifs at h with hsign
        obtain rfl := Except.ok.inj h
        exact .present hmem (Int.toNat_of_nonneg hsign).symm
      · intro h
        obtain ⟨k, rfl, hk⟩ := h.eq_some nodup hmem
        rw [if_pos (hk ▸ Int.natCast_nonneg k), hk, Int.toNat_natCast]
    | other =>
      refine ⟨nofun, fun h => ?_⟩
      cases h with
      | absent habsent => exact absurd (List.mem_map_of_mem hmem) habsent
      | present hmem' =>
        cases List.inj_on_of_nodup_map nodup hmem hmem' rfl

theorem readConfig_eq_ok_iff (nodup : (table.map Prod.fst).Nodup) {config : TreeConfig} :
    readConfig table = .ok config ↔ table.Denotes config := by
  unfold readConfig
  split
  · rename_i p hunknown
    refine ⟨nofun, fun h => ?_⟩
    have hp := List.find?_some hunknown
    simp only [decide_eq_true_eq] at hp
    rcases h.known _ (List.mem_of_find?_eq_some hunknown) with h | h
    · exact absurd h hp.1
    · exact absurd h hp.2
  · rename_i hnone
    have hknown : ∀ p ∈ table, p.1 = limitKey ∨ p.1 = capacityKey := by
      intro p hp
      by_contra hother
      exact List.find?_eq_none.1 hnone p hp (decide_eq_true (not_or.1 hother))
    simp only [bind_eq_ok_iff, readField_eq_ok_iff nodup]
    constructor
    · rintro ⟨limit, hlimit, capacity, hcapacity, h⟩
      obtain rfl := Except.ok.inj h
      exact ⟨hknown, ⟨limit, hlimit, Option.or_none.symm⟩, capacity, hcapacity, rfl⟩
    · rintro ⟨-, ⟨limit, hlimit, hlimit'⟩, capacity, hcapacity, hcapacity'⟩
      refine ⟨limit, hlimit, capacity, hcapacity, congrArg Except.ok ?_⟩
      obtain ⟨_, _⟩ := config
      exact congr (congrArg mk (hlimit'.trans Option.or_none).symm) hcapacity'.symm

end Reader

/-- A line that `toml` writes. -/
def settingLine (key : String) (n : Nat) : List Char :=
  key.toList ++ (" = ".toList ++ Nat.toDigits 10 n)

section Written

variable {key : String}

theorem lineText_settingLine (hne : key.toList ≠ []) (hkey : ∀ c ∈ key.toList, isBareKeyChar c)
    (n : Nat) : LineText (settingLine key n) (some (key, (n : Int))) := by
  have hblank : Blanks [' '] := List.forall_mem_singleton.2 rfl
  have hnil : Blanks [] := List.forall_mem_nil _
  have htext := KeyText.bare hne hkey
  rw [String.ofList_toList] at htext
  have h := LineText.entry hnil htext hblank hblank (numeral_toDigits n) (.blanks hnil)
  rwa [List.append_nil] at h

/-- Nothing in such a line ends it. -/
theorem ne_of_mem_settingLine (hkey : ∀ c ∈ key.toList, isBareKeyChar c) {n : Nat} {c : Char}
    (hc : c ∈ settingLine key n) : c ≠ '\n' ∧ c ≠ '\r' := by
  rcases List.mem_append.1 hc with hc | hc
  · have hbare := hkey c hc
    constructor <;> rintro rfl <;> exact absurd hbare (by decide)
  · rcases List.mem_append.1 hc with hc | hc
    · have hseparator : " = ".toList = [' ', '=', ' '] := rfl
      rw [hseparator] at hc
      constructor <;> rintro rfl <;> simp at hc
    · rcases (digits_toDigits n).eq_or_digit c hc with rfl | ⟨d, hd⟩
      · decide
      · exact ⟨hd.ne (by decide) (by decide), hd.ne (by decide) (by decide)⟩

theorem Lines.settingLine (hkey : ∀ c ∈ key.toList, isBareKeyChar c) (n : Nat) {cs : List Char}
    {lines : List (List Char)} (h : Lines cs lines) :
    Lines (settingLine key n ++ '\n' :: cs) (settingLine key n :: lines) :=
  .feed (fun hmem => (ne_of_mem_settingLine hkey hmem).1 rfl)
    (fun hlast => (ne_of_mem_settingLine hkey (List.mem_of_getLast? hlast)).2 rfl) h

end Written

/-- What the written text says. -/
def entries (config : TreeConfig) : List (String × Int) :=
  (config.entityLimit.map fun limit => (limitKey, (limit : Int))).toList ++
    [(capacityKey, (config.initialCapacity : Int))]

theorem toList_toml (config : TreeConfig) : config.toml.toList =
    (config.entityLimit.map fun limit => settingLine limitKey limit ++ ['\n']).getD [] ++
      (settingLine capacityKey config.initialCapacity ++ ['\n']) := by
  have hrepr (n : Nat) : (toString n).toList = Nat.toDigits 10 n := Nat.toList_repr
  have hfeed : "\n".toList = ['\n'] := rfl
  obtain ⟨limit, capacity⟩ := config
  cases limit with
  | none => simp only [toml, settingLine, String.toList_append, hrepr, hfeed]; rfl
  | some limit =>
    simp only [toml, settingLine, String.toList_append, hrepr, hfeed, List.append_assoc,
      Option.map_some, Option.getD_some]

theorem document_toml (config : TreeConfig) : Document config.toml config.entries := by
  obtain ⟨limit, capacity⟩ := config
  have hcapacity : ∀ c ∈ capacityKey.toList, isBareKeyChar c := List.all_eq_true.1 rfl
  have hend : Lines [] [[]] := .last List.not_mem_nil
  have hlines := hend.settingLine hcapacity capacity
  have hsaid : Says [settingLine capacityKey capacity, []] [(capacityKey, (capacity : Int))] :=
    .entry (lineText_settingLine (by decide) hcapacity _)
      (.silent (.empty (.blanks (List.forall_mem_nil _))) .nil)
  rw [Document, toList_toml]
  cases limit with
  | none => exact ⟨_, hlines, hsaid⟩
  | some limit =>
    have hlimit : ∀ c ∈ limitKey.toList, isBareKeyChar c := List.all_eq_true.1 rfl
    have hboth := hlines.settingLine hlimit limit
    rw [← List.singleton_append, ← List.append_assoc] at hboth
    exact ⟨_, hboth, .entry (lineText_settingLine (by decide) hlimit limit) hsaid⟩

theorem entered_ofNat (key : String) {n : Nat} (h : (n : Int) ≤ Int64.maxValue.toInt) :
    Entered (key, n) (key, .integer (.ofNat n)) :=
  ⟨.ofNat n, toInt_ofNat_of_le h, rfl⟩

/-- The written text has the table of the settings. -/
theorem Fits.readTable_toml {config : TreeConfig} (h : config.Fits) :
    readTable config.toml = .ok config.fields := by
  refine readTable_eq_ok_iff.2 ⟨_, document_toml config, ?_⟩
  obtain ⟨limit, capacity⟩ := config
  have hcapacity := entered_ofNat capacityKey h.capacity
  cases limit with
  | none => exact ⟨.cons hcapacity .nil, List.nodup_singleton _⟩
  | some limit =>
    have hnodup : [limitKey, capacityKey].Nodup := by decide
    exact ⟨.cons (entered_ofNat limitKey (h.limit limit rfl)) (.cons hcapacity .nil), hnodup⟩

end TreeConfig

theorem TomlLibrary.plain_table {text : String} {table : TomlTable} :
    TomlLibrary.plain.table text = some table ↔ readTable text = .ok table := by
  change (readTable text).toOption = _ ↔ _
  cases readTable text with
  | error => exact ⟨nofun, nofun⟩
  | ok found => exact ⟨fun h => congrArg Except.ok (Option.some.inj h),
      fun h => congrArg some (Except.ok.inj h)⟩

theorem TomlLibrary.plain_encode {config : TreeConfig} {text : String} :
    TomlLibrary.plain.encode config = .ok text ↔ config.Fits ∧ config.toml = text := by
  rw [plain]
  dsimp only
  split_ifs with h
  all_goals rw [Bool.and_eq_true, Option.all_eq_true] at h
  · exact ⟨fun heq => ⟨⟨fun n hn => of_decide_eq_true (h.1 n hn), of_decide_eq_true h.2⟩,
      Except.ok.inj heq⟩, fun heq => congrArg Except.ok heq.2⟩
  · exact ⟨nofun, fun heq => absurd ⟨fun n hn => decide_eq_true (heq.1.limit n hn),
      decide_eq_true heq.1.capacity⟩ h⟩

/-- The plain kind of TOML is read and written as it should be. -/
theorem TomlLibrary.plain_lawful : TomlLibrary.plain.Lawful where
  nodup_keys htable := by
    obtain ⟨_, -, -, hnodup⟩ := readTable_eq_ok_iff.1 (plain_table.1 htable)
    exact hnodup
  decode_malformed {text} htable := by
    cases hread : readTable text with
    | error fault =>
      refine ⟨fault.reason, ?_⟩
      rw [plain]
      dsimp only
      rw [hread]
      rfl
    | ok table => exact absurd (htable.symm.trans (plain_table.2 hread)) nofun
  decode_table {text table} htable config := by
    have hread := plain_table.1 htable
    obtain ⟨_, -, -, hnodup⟩ := readTable_eq_ok_iff.1 hread
    rw [← readConfig_eq_ok_iff hnodup, plain]
    dsimp only
    rw [hread]
    change (readConfig table).mapError Fault.reason = _ ↔ _
    cases readConfig table with
    | error => exact ⟨nofun, nofun⟩
    | ok found => exact ⟨fun h => congrArg Except.ok (Except.ok.inj h),
        fun h => congrArg Except.ok (Except.ok.inj h)⟩
  encode_ok_iff config := by
    simp only [plain_encode]
    exact ⟨fun ⟨_, h, _⟩ => h, fun h => ⟨_, h, rfl⟩⟩
  encode_table hencode := by
    obtain ⟨hfits, rfl⟩ := plain_encode.1 hencode
    exact ⟨_, plain_table.2 hfits.readTable_toml, .refl _⟩

/-- Settings with a comment, a quoted key, a base and a carriage return are read and written again;
a key of another name is refused beside a known one, and zero with a sign is refused as a limit. -/
theorem TreeConfig.configurations_survive_round_trip_spellings :
    (∃ again, TomlLibrary.plain.encode ⟨some 16, 0⟩ = .ok again ∧
        fromToml .plain again = .ok ⟨some 16, 0⟩) ∧
      (∃ reason, fromToml .plain "entity_limit = 4\n\"entity\\u005fcap\" = 3" =
        .error (.invalidConfig reason)) ∧
      ∃ reason, fromToml .plain "initial_capacity = 3\nentity_limit=-0 # none" =
        .error (.invalidConfig reason) := by
  have hread : fromToml .plain "# limits\n'entity_limit' = 0x1_0 # sixteen\r\n" =
      .ok ⟨some 16, 0⟩ := rfl
  have hcap : TomlLibrary.plain.table "entity_limit = 4\n\"entity\\u005fcap\" = 3" =
      some [("entity_limit", .integer 4), ("entity_cap", .integer 3)] := rfl
  have hzero : TomlLibrary.plain.table "initial_capacity = 3\nentity_limit=-0 # none" =
      some [("initial_capacity", .integer 3), ("entity_limit", .integer 0)] := rfl
  have hall := configurations_survive_round_trip TomlLibrary.plain_lawful
  refine ⟨((hall _).2.1 _ hread).2, ?_, ?_⟩
  · exact (hall _).2.2.2 _ hcap
      (.inl ⟨_, List.mem_cons_of_mem _ List.mem_cons_self, by decide, by decide⟩)
  · exact (hall _).2.2.2 _ hzero (.inr (List.mem_cons_of_mem _ List.mem_cons_self))

end EntityForest
