/-! Finite maps with visible insertion order. The keys of a table are distinct by construction, so
`size` counts keys, and each operation has one equation in terms of `find?`. -/

namespace EntityForest

/-- A finite map that lists its keys in the order in which they were first inserted. -/
structure Table (κ α : Type) where
  entries : List (κ × α)
  nodup : (entries.map Prod.fst).Nodup

namespace Table

variable {κ α : Type}

def empty : Table κ α := ⟨[], by simp⟩

instance : EmptyCollection (Table κ α) := ⟨empty⟩
instance : Inhabited (Table κ α) := ⟨∅⟩

def keys (t : Table κ α) : List κ := t.entries.map Prod.fst
def values (t : Table κ α) : List α := t.entries.map Prod.snd
def size (t : Table κ α) : Nat := t.entries.length

instance : Membership κ (Table κ α) := ⟨fun t k => k ∈ t.keys⟩

theorem mem_def {t : Table κ α} {k : κ} : k ∈ t ↔ k ∈ t.keys := Iff.rfl

theorem nodup_keys (t : Table κ α) : t.keys.Nodup := t.nodup

@[simp] theorem length_keys (t : Table κ α) : t.keys.length = t.size := by simp [keys, size]

@[simp] theorem not_mem_empty (k : κ) : k ∉ (∅ : Table κ α) := List.not_mem_nil

@[simp] theorem size_empty : (∅ : Table κ α).size = 0 := rfl

variable [DecidableEq κ]

instance (t : Table κ α) (k : κ) : Decidable (k ∈ t) := inferInstanceAs (Decidable (k ∈ t.keys))

def find? (t : Table κ α) (k : κ) : Option α :=
  (t.entries.find? (·.1 = k)).map Prod.snd

/-- A key that is already present keeps its place and takes the new value. -/
def insert (t : Table κ α) (k : κ) (v : α) : Table κ α :=
  if h : k ∈ t.keys then
    ⟨t.entries.map fun p => if p.1 = k then (k, v) else p, by
      have : (t.entries.map fun p => if p.1 = k then (k, v) else p).map Prod.fst = t.keys := by
        simp only [keys, List.map_map]
        apply List.map_congr_left
        intro p _
        by_cases hp : p.1 = k <;> simp [hp]
      rw [this]
      exact t.nodup⟩
  else
    ⟨t.entries ++ [(k, v)], by
      have := t.nodup
      simp only [List.map_append, List.map_cons, List.map_nil]
      rw [List.nodup_append]
      refine ⟨this, by simp, ?_⟩
      intro a ha b hb
      simp only [List.mem_singleton] at hb
      rintro rfl
      exact h (hb ▸ ha)⟩

def erase (t : Table κ α) (k : κ) : Table κ α :=
  ⟨t.entries.filter (·.1 ≠ k), by
    have h : (t.entries.filter (·.1 ≠ k)).map Prod.fst = t.keys.filter (· ≠ k) := by
      simp [keys, List.filter_map, Function.comp_def]
    rw [h]
    exact List.Nodup.sublist List.filter_sublist t.nodup⟩

/-! ### Lookup -/

@[simp] theorem find?_empty (k : κ) : (∅ : Table κ α).find? k = none := rfl

theorem find?_eq_none_iff {t : Table κ α} {k : κ} : t.find? k = none ↔ k ∉ t := by
  simp only [find?, Option.map_eq_none_iff, List.find?_eq_none, decide_eq_true_eq, mem_def, keys,
    List.mem_map, not_exists, not_and]

theorem isSome_find? {t : Table κ α} {k : κ} : (t.find? k).isSome ↔ k ∈ t := by
  have := find?_eq_none_iff (t := t) (k := k)
  cases h : t.find? k <;> simp_all

theorem mem_iff_find? {t : Table κ α} {k : κ} : k ∈ t ↔ ∃ v, t.find? k = some v := by
  rw [← isSome_find?, Option.isSome_iff_exists]

theorem mem_of_find? {t : Table κ α} {k : κ} {v : α} (h : t.find? k = some v) : k ∈ t :=
  mem_iff_find?.2 ⟨v, h⟩

private theorem find?_of_nodup {k : κ} {v : α} :
    ∀ {l : List (κ × α)}, (l.map Prod.fst).Nodup → (k, v) ∈ l →
      l.find? (·.1 = k) = some (k, v)
  | [], _, h => by simp at h
  | (k', v') :: l, hn, h => by
    rw [List.map_cons, List.nodup_cons] at hn
    by_cases hk : k' = k
    · subst hk
      rcases List.mem_cons.1 h with h | h
      · cases h; simp
      · exact absurd (List.mem_map.2 ⟨_, h, rfl⟩) hn.1
    · rcases List.mem_cons.1 h with h | h
      · cases h; exact absurd rfl hk
      · simp [hk, find?_of_nodup hn.2 h]

theorem find?_eq_some_iff {t : Table κ α} {k : κ} {v : α} :
    t.find? k = some v ↔ (k, v) ∈ t.entries := by
  constructor
  · intro h
    obtain ⟨⟨k', v'⟩, hp, rfl⟩ := Option.map_eq_some_iff.1 h
    have hk := List.find?_some hp
    simp only [decide_eq_true_eq] at hk
    exact hk ▸ List.mem_of_find?_eq_some hp
  · intro h
    simp only [find?, find?_of_nodup t.nodup h, Option.map_some]

theorem mem_values {t : Table κ α} {v : α} : v ∈ t.values ↔ ∃ k, t.find? k = some v := by
  simp only [values, List.mem_map, find?_eq_some_iff, Prod.exists, exists_eq_right]

/-! ### Insertion -/

private theorem find?_map_replace {l : List (κ × α)} {k : κ} {v : α} {j : κ} :
    (l.map fun p => if p.1 = k then (k, v) else p).find? (·.1 = j) =
      if j = k then (l.find? (·.1 = k)).map (fun _ => (k, v)) else l.find? (·.1 = j) := by
  induction l with
  | nil => simp
  | cons p l ih =>
    simp only [List.map_cons, List.find?_cons]
    by_cases hp : p.1 = k
    · subst hp
      by_cases hj : j = p.1
      · subst hj; simp
      · have hne : p.1 ≠ j := fun e => hj e.symm
        simpa [hj, hne] using ih
    · by_cases hj : j = k
      · subst hj; simpa [hp] using ih
      · by_cases hpj : p.1 = j
        · simp [hj, hpj]
        · simpa [hp, hj, hpj] using ih

theorem find?_insert (t : Table κ α) (k : κ) (v : α) (j : κ) :
    (t.insert k v).find? j = if j = k then some v else t.find? j := by
  unfold insert
  split
  · rename_i h
    simp only [find?, find?_map_replace]
    split
    · have := (isSome_find? (t := t) (k := k)).2 h
      simp only [find?, Option.isSome_map] at this
      obtain ⟨x, hx⟩ := Option.isSome_iff_exists.1 this
      simp [hx]
    · rfl
  · rename_i h
    simp only [find?, List.find?_append, List.find?_cons, List.find?_nil]
    have hk := (find?_eq_none_iff (t := t) (k := k)).2 h
    simp only [find?, Option.map_eq_none_iff] at hk
    by_cases hj : j = k
    · subst hj; simp [hk]
    · have : k ≠ j := fun e => hj e.symm
      simp [hj, this]

@[simp] theorem find?_insert_self (t : Table κ α) (k : κ) (v : α) :
    (t.insert k v).find? k = some v := by simp [find?_insert]

@[simp] theorem mem_insert {t : Table κ α} {k j : κ} {v : α} :
    j ∈ t.insert k v ↔ j = k ∨ j ∈ t := by
  rw [← isSome_find?, ← isSome_find?, find?_insert]
  by_cases h : j = k <;> simp [h]

theorem entries_insert_of_not_mem {t : Table κ α} {k : κ} (h : k ∉ t) (v : α) :
    (t.insert k v).entries = t.entries ++ [(k, v)] := by
  rw [insert, dif_neg (mt mem_def.2 h)]

theorem keys_insert (t : Table κ α) (k : κ) (v : α) :
    (t.insert k v).keys = if k ∈ t then t.keys else t.keys ++ [k] := by
  simp only [mem_def]
  unfold insert
  split
  · simp only [keys, List.map_map]
    apply List.map_congr_left
    intro p _
    by_cases hp : p.1 = k <;> simp [hp]
  · simp [keys]

theorem size_insert (t : Table κ α) (k : κ) (v : α) :
    (t.insert k v).size = if k ∈ t then t.size else t.size + 1 := by
  rw [← length_keys, keys_insert]
  split <;> simp

/-! ### Removal -/

theorem find?_erase (t : Table κ α) (k j : κ) :
    (t.erase k).find? j = if j = k then none else t.find? j := by
  unfold find? erase
  rw [List.find?_filter]
  by_cases h : j = k
  · subst h
    simp
  · simp only [h, ↓reduceIte]
    congr 2
    funext p
    by_cases hp : p.1 = j <;> simp [hp, h]

@[simp] theorem mem_erase {t : Table κ α} {k j : κ} : j ∈ t.erase k ↔ j ≠ k ∧ j ∈ t := by
  rw [← isSome_find?, ← isSome_find?, find?_erase]
  by_cases h : j = k <;> simp [h]

theorem keys_erase (t : Table κ α) (k : κ) : (t.erase k).keys = t.keys.filter (· ≠ k) := by
  simp [keys, erase, List.filter_map, Function.comp_def]

theorem size_erase (t : Table κ α) (k : κ) :
    (t.erase k).size = if k ∈ t then t.size - 1 else t.size := by
  rw [← length_keys, keys_erase, ← length_keys t]
  have hn := t.nodup_keys
  by_cases h : k ∈ t
  · simp only [h, ↓reduceIte]
    have : t.keys.filter (fun j => decide (j ≠ k)) = t.keys.erase k := by
      rw [hn.erase_eq_filter]
      apply List.filter_congr
      intro x _
      by_cases hx : x = k <;> simp [hx]
    rw [this, List.length_erase_of_mem h]
  · simp only [h, ↓reduceIte]
    rw [List.filter_eq_self.2]
    intro a ha
    simp only [decide_eq_true_eq]
    rintro rfl
    exact h ha

end Table

end EntityForest
