import EntityForest.Proofs.Owners

/-! # The bound on walks

A factory follows at most one link more than it has records. Where the links have no cycle this is
always enough: the walk has ended by itself before, at the only unrecorded identity on its way. The
bound is tight, since a chain through all records has as many links as there are records and one
identity more. -/

namespace EntityForest.Owners

open Relation (ReflTransGen TransGen)

variable {owners : Table Uuid Uuid}

/-- The root is as many links away as the walk to it has, and no walk needs more than one for each
record. -/
theorem exists_walk_rootOf (owners : Table Uuid Uuid) (id : Uuid) :
    ∃ n ≤ owners.size, walk owners n id = some (rootOf owners id) :=
  exists_walk_le (reaches_iff_walk.1 (reaches_rootOf id))

theorem rootOf_eq_iff (hac : ∀ x, ¬ TransGen (Link owners) x x) {id top : Uuid} :
    rootOf owners id = top ↔ ReflTransGen (Link owners) id top ∧ top ∉ owners := by
  constructor
  · rintro rfl
    exact ⟨reaches_rootOf id, rootOf_not_mem hac id⟩
  · rintro ⟨hreach, htop⟩
    exact rootOf_eq_of_reaches hreach htop

/-- Once the walk may follow all records, a higher bound leads to the same end. -/
theorem climb_eq_rootOf (hac : ∀ x, ¬ TransGen (Link owners) x x) {steps : Nat}
    (hsteps : owners.size ≤ steps) (id : Uuid) : climb owners steps id = rootOf owners id := by
  obtain ⟨n, hn, hwalk⟩ := exists_walk_rootOf owners id
  exact climb_of_walk (hn.trans hsteps) hwalk (rootOf_not_mem hac id)

/-- Once the search may look at all records, a higher bound finds nothing else. -/
theorem meets_eq_isWithin {steps : Nat} (hsteps : owners.size < steps) (id ancestor : Uuid) :
    meets owners ancestor steps id = isWithin owners id ancestor := by
  rw [Bool.eq_iff_iff, isWithin_iff, reaches_iff_walk, meets_iff]
  constructor
  · rintro ⟨n, -, hwalk⟩
    exact ⟨n, hwalk⟩
  · intro hwalks
    obtain ⟨n, hn, hwalk⟩ := exists_walk_le hwalks
    exact ⟨n, hn.trans_lt hsteps, hwalk⟩

/-! ## Chains through all records -/

/-- A walk does not go on from an unrecorded identity. -/
theorem le_of_walk_of_not_mem {m n : Nat} {id x top : Uuid} (hm : walk owners m id = some x)
    (hn : walk owners n id = some top) (htop : top ∉ owners) : m ≤ n := by
  by_contra hlt
  obtain ⟨y, hy, hmem⟩ := mem_of_walk_lt (Nat.not_le.1 hlt) hm
  obtain rfl := Option.some.inj (hn.symm.trans hy)
  exact htop hmem

/-- A chain that passes all records has at least one link for each of them. -/
theorem size_le_of_walk {n : Nat} {id top : Uuid} (hwalk : walk owners n id = some top)
    (htop : top ∉ owners) (hall : ∀ x ∈ owners, ReflTransGen (Link owners) id x) :
    owners.size ≤ n := by
  let visit (k : Nat) : Uuid := (walk owners k id).getD .nil
  have hvisits : owners.keys.toFinset ⊆ (Finset.range n).image visit := by
    intro x hx
    have hmem : x ∈ owners := List.mem_toFinset.1 hx
    obtain ⟨k, hk⟩ := reaches_iff_walk.1 (hall x hmem)
    have hkn : k ≠ n := by
      rintro rfl
      obtain rfl := Option.some.inj (hk.symm.trans hwalk)
      exact htop hmem
    have hlt : k < n := (le_of_walk_of_not_mem hk hwalk htop).lt_of_ne hkn
    refine Finset.mem_image.2 ⟨k, Finset.mem_range.2 hlt, ?_⟩
    simp only [visit, hk, Option.getD_some]
  have hcard := (Finset.card_le_card hvisits).trans Finset.card_image_le
  rwa [Finset.card_range, List.toFinset_card_of_nodup owners.nodup_keys, Table.length_keys] at hcard

/-- A chain through all records has one link for each, and its end is met at the last identity that
the bound admits. -/
theorem walk_size_of_all (hac : ∀ x, ¬ TransGen (Link owners) x x) {id : Uuid}
    (hall : ∀ x ∈ owners, ReflTransGen (Link owners) id x) :
    walk owners owners.size id = some (rootOf owners id) ∧
      meets owners (rootOf owners id) owners.size id = false := by
  have hend := rootOf_not_mem hac id
  constructor
  · obtain ⟨n, hn, hwalk⟩ := exists_walk_rootOf owners id
    rwa [← hn.antisymm (size_le_of_walk hwalk hend hall)]
  · rw [Bool.eq_false_iff, ne_eq, meets_iff]
    rintro ⟨n, hn, hwalk⟩
    exact Nat.not_le.2 hn (size_le_of_walk hwalk hend hall)

/-! ## The two walks -/

/-- What the two bounded walks from an identity find out, and that their bound never ends them. -/
structure WalksExactly (owners : Table Uuid Uuid) (id : Uuid) : Prop where
  root : ∀ top, rootOf owners id = top ↔ ReflTransGen (Link owners) id top ∧ top ∉ owners
  within : ∀ ancestor, isWithin owners id ancestor = true ↔ ReflTransGen (Link owners) id ancestor
  /-- The root is found after fewer links than the bound admits. -/
  ends : ∃ n < owners.size + 1, walk owners n id = some (rootOf owners id)
  climb : ∀ steps > owners.size, climb owners steps id = rootOf owners id
  search : ∀ steps > owners.size, ∀ ancestor,
    meets owners ancestor steps id = isWithin owners id ancestor
  /-- If the chain uses every record, the bound is what the search needs to meet the root. -/
  longest : (∀ x ∈ owners, ReflTransGen (Link owners) id x) →
    walk owners owners.size id = some (rootOf owners id) ∧
      meets owners (rootOf owners id) owners.size id = false

/-- Where the links have no cycle, the bounded walks tell the root and the owners of an identity as
if they had no bound. -/
theorem bounded_walks_are_exact (owners : Table Uuid Uuid)
    (hac : ∀ x, ¬ TransGen (Link owners) x x) (id : Uuid) : WalksExactly owners id where
  root _ := rootOf_eq_iff hac
  within _ := isWithin_iff
  ends := by
    obtain ⟨n, hn, hwalk⟩ := exists_walk_rootOf owners id
    exact ⟨n, Nat.lt_succ_of_le hn, hwalk⟩
  climb _ hsteps := climb_eq_rootOf hac (Nat.le_of_lt hsteps) id
  search _ hsteps := meets_eq_isWithin hsteps id
  longest := walk_size_of_all hac

/-- The entity 1 in the entity 2, that one in 3, and 3 in the container 4. -/
def row : Table Uuid Uuid :=
  (((∅ : Table Uuid Uuid).insert (.ofNat 2) (.ofNat 3)).insert (.ofNat 1) (.ofNat 2)).insert
    (.ofNat 3) (.ofNat 4)

theorem row_no_cycle (x : Uuid) : ¬ TransGen (Link row) x x := by
  have hlink : ∀ a b, Link row a b → a.toNat < b.toNat := by
    intro a b h
    have hmem : (a, b) ∈ row.entries := Table.find?_eq_some_iff.1 h
    have hall : ∀ p ∈ row.entries, p.1.toNat < p.2.toNat := by decide +kernel
    exact hall (a, b) hmem
  have hpath : ∀ a b, TransGen (Link row) a b → a.toNat < b.toNat := by
    intro a b h
    induction h with
    | single h => exact hlink _ _ h
    | tail _ h ih => exact ih.trans (hlink _ _ h)
  intro h
  exact Nat.lt_irrefl _ (hpath x x h)

/-- From 1 the chain uses all three records, and three looks would not meet its end. -/
theorem bounded_walks_are_exact_row :
    (∀ x, ¬ TransGen (Link row) x x) ∧ WalksExactly row (.ofNat 1) ∧
      rootOf row (.ofNat 1) = .ofNat 4 ∧ isWithin row (.ofNat 1) (.ofNat 4) = true ∧
      meets row (.ofNat 4) row.size (.ofNat 1) = false :=
  ⟨row_no_cycle, bounded_walks_are_exact row row_no_cycle (.ofNat 1), by decide +kernel,
    by decide +kernel, by decide +kernel⟩

end EntityForest.Owners
