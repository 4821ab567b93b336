import EntityForest.Table
import Mathlib.Data.List.Nodup
import Mathlib.Data.List.Perm.Subperm

/-! # Tables after several writes -/

namespace EntityForest.Table

variable {κ α β : Type}

theorem eq_empty_iff {t : Table κ α} : t = ∅ ↔ ∀ k, k ∉ t := by
  constructor
  · rintro rfl k
    exact not_mem_empty k
  · intro h
    obtain ⟨entries, nodup⟩ := t
    cases entries with
    | nil => rfl
    | cons p ps =>
      have hmem : p.1 ∈ (⟨p :: ps, nodup⟩ : Table κ α) := List.mem_cons_self
      exact absurd hmem (h p.1)

/-! ### Counting -/

/-- A table that has all keys of another one and further ones is larger by as many. -/
theorem size_add_length_le {t u : Table κ α} {ks : List κ} (hks : ks.Nodup)
    (hsub : ∀ k ∈ t, k ∈ u) (hnew : ∀ k ∈ ks, k ∉ t ∧ k ∈ u) : t.size + ks.length ≤ u.size := by
  have hnodup : (t.keys ++ ks).Nodup := by
    refine List.nodup_append.2 ⟨t.nodup_keys, hks, ?_⟩
    rintro i hi j hj rfl
    exact (hnew i hj).1 (mem_def.2 hi)
  have hincl : t.keys ++ ks ⊆ u.keys := by
    intro k hk
    rcases List.mem_append.1 hk with hk | hk
    · exact mem_def.1 (hsub k (mem_def.2 hk))
    · exact mem_def.1 (hnew k hk).2
  have hle := (hnodup.subperm hincl).length_le
  rwa [List.length_append, length_keys, length_keys] at hle

variable [DecidableEq κ]

theorem nodup_values {t : Table κ α}
    (h : ∀ {i j v}, t.find? i = some v → t.find? j = some v → i = j) : t.values.Nodup := by
  have hentries : t.entries.Nodup := List.Nodup.of_map Prod.fst t.nodup
  refine hentries.map_on fun p hp q hq heq => Prod.ext ?_ heq
  refine h (v := p.2) (find?_eq_some_iff.2 hp) (find?_eq_some_iff.2 ?_)
  rwa [heq]

/-! ### Inserting a list -/

section Insert

variable (key : β → κ) (value : β → α)

theorem find?_foldl_insert_of_not_mem {l : List β} {j : κ} (h : ∀ p ∈ l, key p ≠ j)
    (t : Table κ α) :
    (l.foldl (fun t p => t.insert (key p) (value p)) t).find? j = t.find? j := by
  induction l generalizing t with
  | nil => rfl
  | cons p l ih =>
    rw [List.foldl_cons, ih (fun q hq => h q (List.mem_cons_of_mem p hq)), find?_insert,
      if_neg (h p List.mem_cons_self).symm]

/-- If a list writes one value to a key, this value is found in the end. -/
theorem find?_foldl_insert_of_mem {l : List β} {j : κ} {v : α} (hj : ∃ p ∈ l, key p = j)
    (hv : ∀ p ∈ l, key p = j → value p = v) (t : Table κ α) :
    (l.foldl (fun t p => t.insert (key p) (value p)) t).find? j = some v := by
  induction l generalizing t with
  | nil => simp at hj
  | cons p l ih =>
    rw [List.foldl_cons]
    by_cases hmore : ∃ q ∈ l, key q = j
    · exact ih hmore (fun q hq => hv q (List.mem_cons_of_mem p hq)) _
    · have hnone : ∀ q ∈ l, key q ≠ j := fun q hq he => hmore ⟨q, hq, he⟩
      obtain ⟨q, hq, hkey⟩ := hj
      rcases List.mem_cons.1 hq with rfl | hq
      · rw [find?_foldl_insert_of_not_mem key value hnone, hkey, find?_insert_self,
          hv q List.mem_cons_self hkey]
      · exact absurd hkey (hnone q hq)

theorem mem_foldl_insert {l : List β} {j : κ} (t : Table κ α) :
    j ∈ l.foldl (fun t p => t.insert (key p) (value p)) t ↔ j ∈ t ∨ ∃ p ∈ l, key p = j := by
  induction l generalizing t with
  | nil => simp
  | cons p l ih =>
    rw [List.foldl_cons, ih, mem_insert, List.exists_mem_cons_iff, eq_comm]
    tauto

theorem size_foldl_insert_le (l : List β) (t : Table κ α) :
    (l.foldl (fun t p => t.insert (key p) (value p)) t).size ≤ t.size + l.length := by
  induction l generalizing t with
  | nil => exact Nat.le_refl _
  | cons p l ih =>
    have hstep : (t.insert (key p) (value p)).size ≤ t.size + 1 := by
      rw [size_insert]
      split <;> omega
    have hrest := ih (t.insert (key p) (value p))
    rw [List.foldl_cons, List.length_cons]
    omega

end Insert

/-! ### Erasing the entries that a list names -/

theorem size_erase_le (t : Table κ α) (k : κ) : (t.erase k).size ≤ t.size := by
  rw [size_erase]
  split <;> omega

section Forget

variable [DecidableEq α] (key : β → κ) (value : β → α)

/-- What is left after each listed entry has been erased where it is found as listed. -/
theorem find?_foldl_forget {l : List β} {t : Table κ α} {j : κ} {v : α} :
    (l.foldl (fun t p => if t.find? (key p) = some (value p) then t.erase (key p) else t)
        t).find? j = some v ↔
      t.find? j = some v ∧ ∀ p ∈ l, key p = j → value p ≠ v := by
  induction l generalizing t with
  | nil => simp
  | cons p l ih =>
    have hhead :
        (if t.find? (key p) = some (value p) then t.erase (key p) else t).find? j = some v ↔
          t.find? j = some v ∧ (key p = j → value p ≠ v) := by
      split
      · rename_i hfound
        rw [find?_erase]
        by_cases hj : j = key p
        · subst hj
          simp [hfound]
        · simp [hj, Ne.symm hj]
      · rename_i hfound
        refine ⟨fun h => ⟨h, ?_⟩, And.left⟩
        rintro rfl rfl
        exact hfound h
    rw [List.foldl_cons, ih, hhead, List.forall_mem_cons, and_assoc]

theorem size_foldl_forget_le (l : List β) (t : Table κ α) :
    (l.foldl (fun t p => if t.find? (key p) = some (value p) then t.erase (key p) else t)
        t).size ≤ t.size := by
  induction l generalizing t with
  | nil => exact Nat.le_refl _
  | cons p l ih =>
    rw [List.foldl_cons]
    apply Nat.le_trans (ih _)
    split
    · exact t.size_erase_le _
    · exact Nat.le_refl _

end Forget

end EntityForest.Table
