import EntityForest.Factory.Owners
import Mathlib.Data.Finset.Card
import Mathlib.Data.Finset.Dedup
import Mathlib.Data.Nat.Find
import Mathlib.Logic.Relation

/-! # Walks along owner links

A walk is bounded by the number of records. The bound never cuts a walk short that would have met
what it looks for: a first meeting happens before any identity is passed twice. -/

namespace EntityForest.Owners

open Relation (ReflTransGen TransGen)

variable {owners : Table Uuid Uuid}

/-- The identity exactly `n` links above another one, if there are so many links. -/
def walk (owners : Table Uuid Uuid) : Nat → Uuid → Option Uuid
  | 0, id => some id
  | n + 1, id => (owners.find? id).bind (walk owners n)

/-- A record names one owner. -/
theorem link_unique (owners : Table Uuid Uuid) : Relator.RightUnique (Link owners) :=
  fun _ _ _ h h' => Option.some.inj (Eq.trans (Eq.symm h) h')

/-! ### Walks compose -/

@[simp] theorem walk_zero (id : Uuid) : walk owners 0 id = some id := rfl

theorem walk_succ (n : Nat) (id : Uuid) :
    walk owners (n + 1) id = (owners.find? id).bind (walk owners n) := rfl

theorem walk_add (m n : Nat) (id : Uuid) :
    walk owners (m + n) id = (walk owners m id).bind (walk owners n) := by
  induction m generalizing id with
  | zero => simp
  | succ m ih =>
    rw [Nat.succ_add, walk_succ, walk_succ, Option.bind_assoc]
    congr 1
    funext owner
    exact ih owner

theorem reaches_of_walk {n : Nat} {id top : Uuid} (h : walk owners n id = some top) :
    ReflTransGen (Link owners) id top := by
  induction n generalizing id with
  | zero =>
    cases h
    exact .refl
  | succ n ih =>
    obtain ⟨owner, hlink, hrest⟩ := Option.bind_eq_some_iff.1 h
    exact .head hlink (ih hrest)

theorem reaches_iff_walk {id top : Uuid} :
    ReflTransGen (Link owners) id top ↔ ∃ n, walk owners n id = some top := by
  constructor
  · intro h
    induction h using ReflTransGen.head_induction_on with
    | refl => exact ⟨0, rfl⟩
    | head hlink _ ih =>
      obtain ⟨n, hn⟩ := ih
      refine ⟨n + 1, ?_⟩
      rw [walk_succ, hlink, Option.bind_some, hn]
  · intro hwalk
    obtain ⟨n, h⟩ := hwalk
    exact reaches_of_walk h

/-- Two visits of one identity close a cycle of links. -/
theorem cycle_of_walk_eq {i j : Nat} (hij : i < j) {id x : Uuid} (hi : walk owners i id = some x)
    (hj : walk owners j id = some x) : TransGen (Link owners) x x := by
  obtain ⟨k, rfl⟩ := Nat.exists_eq_add_of_lt hij
  rw [Nat.add_assoc, walk_add, hi, Option.bind_some] at hj
  obtain ⟨owner, hlink, hrest⟩ := Option.bind_eq_some_iff.1 hj
  exact .head' hlink (reaches_of_walk hrest)

/-! ### The number of records bounds a walk -/

/-- Before a walk goes on it stands at a recorded identity. -/
theorem mem_of_walk_lt {m n : Nat} (hmn : m < n) {id top : Uuid}
    (h : walk owners n id = some top) : ∃ x, walk owners m id = some x ∧ x ∈ owners := by
  obtain ⟨k, rfl⟩ := Nat.exists_eq_add_of_lt hmn
  rw [Nat.add_assoc, walk_add] at h
  obtain ⟨x, hx, hrest⟩ := Option.bind_eq_some_iff.1 h
  obtain ⟨owner, hlink, -⟩ := Option.bind_eq_some_iff.1 hrest
  exact ⟨x, hx, Table.mem_of_find? hlink⟩

/-- A walk of more links than there are records passes some identity twice. -/
theorem exists_repeat {n : Nat} (hn : owners.size < n) {id top : Uuid}
    (h : walk owners n id = some top) :
    ∃ i j x, i < j ∧ j < n ∧ walk owners i id = some x ∧ walk owners j id = some x := by
  let visit (k : Nat) : Uuid := (walk owners k id).getD .nil
  have hvisit : ∀ k < n, walk owners k id = some (visit k) ∧ visit k ∈ owners := by
    intro k hk
    obtain ⟨x, hx, hmem⟩ := mem_of_walk_lt hk h
    have hv : visit k = x := by simp only [visit, hx, Option.getD_some]
    rw [hv]
    exact ⟨hx, hmem⟩
  have hcard : owners.keys.toFinset.card < (Finset.range n).card := by
    rw [Finset.card_range, List.toFinset_card_of_nodup owners.nodup_keys, Table.length_keys]
    exact hn
  have hmaps : ∀ k ∈ Finset.range n, visit k ∈ owners.keys.toFinset := by
    intro k hk
    exact List.mem_toFinset.2 (hvisit k (Finset.mem_range.1 hk)).2
  obtain ⟨i, hi, j, hj, hne, heq⟩ := Finset.exists_ne_map_eq_of_card_lt_of_maps_to hcard hmaps
  have hi' := Finset.mem_range.1 hi
  have hj' := Finset.mem_range.1 hj
  rcases Nat.lt_or_gt_of_ne hne with hlt | hlt
  · exact ⟨i, j, visit i, hlt, hj', (hvisit i hi').1, heq ▸ (hvisit j hj').1⟩
  · exact ⟨j, i, visit i, hlt, hi', heq ▸ (hvisit j hj').1, (hvisit i hi').1⟩

/-- What can be reached at all is reached within as many links as there are records. -/
theorem exists_walk_le {id top : Uuid} (h : ∃ n, walk owners n id = some top) :
    ∃ n ≤ owners.size, walk owners n id = some top := by
  classical
  refine ⟨Nat.find h, ?_, Nat.find_spec h⟩
  by_contra hlong
  obtain ⟨i, j, x, hij, hj, hi', hj'⟩ := exists_repeat (Nat.not_le.1 hlong) (Nat.find_spec h)
  -- leaving out the links between the two visits gives a shorter way
  have hshort : walk owners (i + (Nat.find h - j)) id = some top := by
    have hfull := Nat.find_spec h
    rw [← Nat.add_sub_cancel' hj.le, walk_add, hj', Option.bind_some] at hfull
    rw [walk_add, hi', Option.bind_some]
    simpa using hfull
  exact Nat.find_min h (by omega) hshort

/-! ### Meeting an owner -/

theorem meets_iff {ancestor : Uuid} {steps : Nat} {id : Uuid} :
    meets owners ancestor steps id = true ↔ ∃ n < steps, walk owners n id = some ancestor := by
  induction steps generalizing id with
  | zero => simp [meets]
  | succ steps ih =>
    rw [meets]
    constructor
    · intro h
      split at h
      · rename_i heq
        exact ⟨0, Nat.succ_pos _, by rw [heq, walk_zero]⟩
      · split at h
        · rename_i owner hlink
          obtain ⟨n, hn, hwalk⟩ := ih.1 h
          refine ⟨n + 1, Nat.succ_lt_succ hn, ?_⟩
          rw [walk_succ, hlink, Option.bind_some, hwalk]
        · cases h
    · intro hwalks
      obtain ⟨n, hn, hwalk⟩ := hwalks
      split
      · rfl
      · rename_i hne
        cases n with
        | zero => exact absurd (Option.some.inj hwalk) hne
        | succ n =>
          obtain ⟨owner, hlink, hrest⟩ := Option.bind_eq_some_iff.1 hwalk
          simp only [hlink]
          exact ih.2 ⟨n, Nat.lt_of_succ_lt_succ hn, hrest⟩

/-- The bounded search is exact for every finite set of records, also for one with cycles. -/
theorem isWithin_iff {id ancestor : Uuid} :
    isWithin owners id ancestor = true ↔ ReflTransGen (Link owners) id ancestor := by
  rw [isWithin, meets_iff, reaches_iff_walk]
  constructor
  · intro hwalks
    obtain ⟨n, -, h⟩ := hwalks
    exact ⟨n, h⟩
  · intro h
    obtain ⟨n, hn, hwalk⟩ := exists_walk_le h
    exact ⟨n, Nat.lt_succ_of_le hn, hwalk⟩

/-! ### Roots -/

theorem reaches_climb (n : Nat) (id : Uuid) :
    ReflTransGen (Link owners) id (climb owners n id) := by
  induction n generalizing id with
  | zero => exact .refl
  | succ n ih =>
    rw [climb]
    split
    · rename_i owner hlink
      exact .head hlink (ih owner)
    · exact .refl

theorem reaches_rootOf (id : Uuid) : ReflTransGen (Link owners) id (rootOf owners id) :=
  reaches_climb _ id

theorem climb_of_walk {n k : Nat} (hk : k ≤ n) {id top : Uuid}
    (h : walk owners k id = some top) (htop : top ∉ owners) : climb owners n id = top := by
  induction n generalizing k id with
  | zero =>
    obtain rfl := Nat.le_zero.1 hk
    exact Option.some.inj h
  | succ n ih =>
    rw [climb]
    cases k with
    | zero =>
      cases h
      rw [Table.find?_eq_none_iff.2 htop]
    | succ k =>
      obtain ⟨owner, hlink, hrest⟩ := Option.bind_eq_some_iff.1 h
      simp only [hlink]
      exact ih (Nat.le_of_succ_le_succ hk) hrest

/-- An unrecorded identity that can be reached is the root. -/
theorem rootOf_eq_of_reaches {id top : Uuid} (h : ReflTransGen (Link owners) id top)
    (htop : top ∉ owners) : rootOf owners id = top := by
  obtain ⟨n, hn, hwalk⟩ := exists_walk_le (reaches_iff_walk.1 h)
  exact climb_of_walk (Nat.le_succ_of_le hn) hwalk htop

theorem climb_not_mem_of_walk {n : Nat} {id : Uuid} (h : walk owners n id = none) :
    climb owners n id ∉ owners := by
  induction n generalizing id with
  | zero => cases h
  | succ n ih =>
    rw [climb]
    split
    · rename_i owner hlink
      rw [walk_succ, hlink, Option.bind_some] at h
      exact ih h
    · rename_i hlink
      exact Table.find?_eq_none_iff.1 hlink

/-- Without a cycle every walk ends at an identity that is not recorded. -/
theorem rootOf_not_mem (hac : ∀ x, ¬ TransGen (Link owners) x x) (id : Uuid) :
    rootOf owners id ∉ owners := by
  apply climb_not_mem_of_walk
  by_contra hsome
  obtain ⟨top, htop⟩ := Option.ne_none_iff_exists'.1 hsome
  obtain ⟨i, j, x, hij, -, hi, hj⟩ := exists_repeat (Nat.lt_succ_self _) htop
  exact hac x (cycle_of_walk_eq hij hi hj)

/-- Without a cycle an identity and its owners have one root. -/
theorem rootOf_eq_rootOf (hac : ∀ x, ¬ TransGen (Link owners) x x) {id owner : Uuid}
    (h : ReflTransGen (Link owners) id owner) : rootOf owners id = rootOf owners owner :=
  rootOf_eq_of_reaches (h.trans (reaches_rootOf owner)) (rootOf_not_mem hac owner)

end EntityForest.Owners
