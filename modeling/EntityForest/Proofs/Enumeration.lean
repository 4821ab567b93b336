import EntityForest.Proofs.Trees
import Mathlib.Logic.Function.Iterate

/-! # The worklist of a factory

A factory enumerates a subtree with a worklist: first it lists what the child container of the
entity holds, then it goes through the list and appends what each entity on it holds. No bound is
set to this loop. It ends exactly where no entity that it comes to lies below itself, and by then it
has listed what the enumeration by levels lists, in the same order. -/

namespace EntityForest.Registry

variable [ValueTypes]

/-- What has been listed, and the position up to which the list has been worked off. -/
structure Search where
  found : List (EntityRef × Uuid)
  next : Nat

namespace Search

def start (r : Registry) (e : EntityRef) : Search := ⟨r.childrenOf e, 0⟩

/-- One round of the loop. -/
def advance (r : Registry) (s : Search) : Search :=
  match s.found[s.next]? with
  | some p => ⟨s.found ++ r.childrenOf p.1, s.next + 1⟩
  | none => s

/-- Nothing on the list is left to be worked off. -/
def Done (s : Search) : Prop := s.found.length ≤ s.next

end Search

/-- The loop ends with this list. -/
def Yields (r : Registry) (e : EntityRef) (l : List (EntityRef × Uuid)) : Prop :=
  ∃ n, ((Search.advance r)^[n] (.start r e)).Done ∧ ((Search.advance r)^[n] (.start r e)).found = l

variable {r : Registry}

/-! ## Level by level -/

/-- What is held exactly `k + 1` levels below the given entities. -/
def level (r : Registry) : Nat → List EntityRef → List (EntityRef × Uuid)
  | 0, ps => ps.flatMap r.childrenOf
  | k + 1, ps => (r.level k ps).flatMap fun p => r.childrenOf p.1

theorem level_children (k : Nat) (ps : List EntityRef) :
    r.level k ((ps.flatMap r.childrenOf).map Prod.fst) = r.level (k + 1) ps := by
  induction k with
  | zero => simp only [level, List.flatMap_map]
  | succ k ih =>
    rw [level, ih]
    rfl

theorem below_snoc (k : Nat) (ps : List EntityRef) :
    r.below (k + 1) ps = r.below k ps ++ r.level k ps := by
  induction k generalizing ps with
  | zero => rw [below_succ, below, below, List.append_nil, List.nil_append, level]
  | succ k ih => rw [below_succ, ih, level_children, below_succ k, List.append_assoc]

theorem exists_down_of_mem_level {k : Nat} {e : EntityRef} {p : EntityRef × Uuid}
    (h : p ∈ r.level k [e]) : ∃ q, r.Down k e q ∧ r.Parent q p.1 := by
  induction k generalizing p with
  | zero =>
    rw [level, List.flatMap_singleton] at h
    exact ⟨e, rfl, (mem_childrenOf.1 h).1⟩
  | succ k ih =>
    obtain ⟨m, hm, hp⟩ := List.mem_flatMap.1 h
    obtain ⟨q, hdown, hparent⟩ := ih hm
    exact ⟨m.1, hdown.snoc hparent, (mem_childrenOf.1 hp).1⟩

/-- The entities on a way down that does not return are different, and each of them has a child
container that holds something. -/
theorem down_add_card_lt_size {k : Nat} {p q x : EntityRef} (hdown : r.Down k p q)
    (hx : r.Parent q x) (hac : ∀ y, y = p ∨ r.Below p y → ¬ r.Below y y) {above : Finset Nat}
    (habove : above ⊆ Finset.range r.children.size)
    (havoid : ∀ y, y = p ∨ r.Below p y → y.index ∉ above) : k + above.card < r.children.size := by
  -- `above` collects the entities that the way has passed
  induction k generalizing p above with
  | zero =>
    obtain rfl : p = q := hdown
    have hle := Finset.card_le_card
      (Finset.insert_subset (Finset.mem_range.2 (index_lt_of_parent hx)) habove)
    rw [Finset.card_insert_of_notMem (havoid p (.inl rfl)), Finset.card_range] at hle
    omega
  | succ k ih =>
    obtain ⟨m, hm, hdown⟩ := hdown
    have hbelow : ∀ y, y = m ∨ r.Below m y → r.Below p y := fun _ hy => .of_parent hm hy
    have havoid' : ∀ y, y = m ∨ r.Below m y → y.index ∉ insert p.index above := by
      intro y hy hi
      rcases Finset.mem_insert.1 hi with hi | hi
      · obtain rfl := EntityRef.index_inj.1 hi
        exact hac y (.inl rfl) (hbelow y hy)
      · exact havoid y (.inr (hbelow y hy)) hi
    have hrest := ih hdown (fun y hy => hac y (.inr (hbelow y hy)))
      (Finset.insert_subset (Finset.mem_range.2 (index_lt_of_parent hm)) habove) havoid'
    rw [Finset.card_insert_of_notMem (havoid p (.inl rfl))] at hrest
    omega

/-- Below an entity that no cycle is reached from, all levels have been enumerated. -/
theorem level_size_eq_nil {e : EntityRef} (hac : ∀ y, y = e ∨ r.Below e y → ¬ r.Below y y) :
    r.level r.children.size [e] = [] := by
  refine List.eq_nil_iff_forall_not_mem.2 fun p hp => ?_
  obtain ⟨q, hdown, hparent⟩ := exists_down_of_mem_level hp
  have hnone : (∅ : Finset Nat) ⊆ Finset.range r.children.size := Finset.empty_subset _
  have hlt := down_add_card_lt_size hdown hparent hac hnone fun y _ => Finset.notMem_empty y.index
  rw [Finset.card_empty] at hlt
  omega

/-! ## Rounds of the loop -/

namespace Search

/-- What is pending is worked off in as many rounds, and its children are appended. -/
theorem iterate_advance (seen pending more : List (EntityRef × Uuid)) :
    (advance r)^[pending.length] ⟨seen ++ pending ++ more, seen.length⟩ =
      ⟨seen ++ pending ++ more ++ pending.flatMap fun p => r.childrenOf p.1,
        (seen ++ pending).length⟩ := by
  induction pending generalizing seen more with
  | nil => simp
  | cons p pending ih =>
    have hround : advance r ⟨seen ++ p :: pending ++ more, seen.length⟩ =
        ⟨seen ++ [p] ++ pending ++ (more ++ r.childrenOf p.1), (seen ++ [p]).length⟩ := by
      simp [advance]
    rw [List.length_cons, Function.iterate_succ_apply, hround, ih]
    simp

/-- The loop works through one level after another. -/
theorem iterate_below (e : EntityRef) (k : Nat) :
    (advance r)^[(r.below k [e]).length] (start r e) =
      ⟨r.below (k + 1) [e], (r.below k [e]).length⟩ := by
  induction k with
  | zero =>
    rw [below_snoc, below, level, List.flatMap_singleton]
    rfl
  | succ k ih =>
    have hrounds := iterate_advance (r := r) (r.below k [e]) (r.level k [e]) []
    rw [List.append_nil, ← below_snoc] at hrounds
    have hlength : (r.below (k + 1) [e]).length =
        (r.level k [e]).length + (r.below k [e]).length := by
      rw [below_snoc, List.length_append, Nat.add_comm]
    rw [hlength, Function.iterate_add_apply, ih, hrounds, ← hlength, below_snoc (k + 1), level]

/-- What the loop maintains: it has listed what the first container holds, and the children of each
entity that has been worked off stand further down on the list. -/
structure Listed (r : Registry) (e : EntityRef) (s : Search) : Prop where
  first : ∀ p ∈ r.childrenOf e, ∃ i : Nat, s.found[i]? = some p
  next_le : s.next ≤ s.found.length
  later : ∀ i < s.next, ∀ p, s.found[i]? = some p →
    ∀ q ∈ r.childrenOf p.1, ∃ j : Nat, i < j ∧ s.found[j]? = some q

theorem listed_start (r : Registry) (e : EntityRef) : Listed r e (start r e) where
  first _ hp := List.mem_iff_getElem?.1 hp
  next_le := Nat.zero_le _
  later _ hi := absurd hi (Nat.not_lt_zero _)

theorem Listed.advance {e : EntityRef} {s : Search} (h : Listed r e s) :
    Listed r e (s.advance r) := by
  unfold Search.advance
  split
  swap
  · exact h
  rename_i p hp
  have hlt : s.next < s.found.length := (List.getElem?_eq_some_iff.1 hp).1
  have hold : ∀ {i : Nat} {q}, s.found[i]? = some q →
      (s.found ++ r.childrenOf p.1)[i]? = some q := by
    intro i q hq
    rw [List.getElem?_append_left (List.getElem?_eq_some_iff.1 hq).1, hq]
  refine ⟨fun q hq => ?_, ?_, fun i hi q hq x hx => ?_⟩
  · obtain ⟨i, hi⟩ := h.first q hq
    exact ⟨i, hold hi⟩
  · rw [List.length_append]
    change s.next + 1 ≤ _
    omega
  · have hi : i < s.next + 1 := hi
    rw [List.getElem?_append_left (by omega)] at hq
    by_cases hlast : i = s.next
    · -- the children of the entity worked off in this round come behind all that was listed
      subst hlast
      obtain rfl := Option.some.inj (hq.symm.trans hp)
      obtain ⟨j, hj⟩ := List.mem_iff_getElem?.1 hx
      refine ⟨s.found.length + j, by omega, ?_⟩
      rw [List.getElem?_append_right (Nat.le_add_right _ _), Nat.add_sub_cancel_left, hj]
    · obtain ⟨j, hij, hj⟩ := h.later i (by omega) q hq x hx
      exact ⟨j, hij, hold hj⟩

theorem listed_iterate (r : Registry) (e : EntityRef) (n : Nat) :
    Listed r e ((Search.advance r)^[n] (start r e)) := by
  induction n with
  | zero => exact listed_start r e
  | succ n ih =>
    rw [Function.iterate_succ_apply']
    exact ih.advance

end Search

theorem Below.exists_child {e x : EntityRef} (h : r.Below e x) :
    ∃ m, r.Parent e m ∧ (x = m ∨ r.Below m x) := by
  induction h with
  | child hx => exact ⟨_, hx, .inl rfl⟩
  | step _ hy ih =>
    obtain ⟨m, hm, rfl | hx⟩ := ih
    · exact ⟨_, hm, .inr (.child hy)⟩
    · exact ⟨m, hm, .inr (.step hx hy)⟩

/-- Whoever lies below itself holds something that lies below itself. -/
theorem Below.exists_child_below_self {x : EntityRef} (h : r.Below x x) :
    ∃ m, r.Parent x m ∧ r.Below m m := by
  obtain ⟨m, hm, rfl | hx⟩ := h.exists_child
  · exact ⟨x, hm, h⟩
  · exact ⟨m, hm, .step hx hm⟩

namespace Search.Listed

variable {e : EntityRef} {s : Search} (h : s.Listed r e) (hdone : s.Done)

include h hdone

theorem exists_of_below {x : EntityRef} (hx : r.Below e x) :
    ∃ (i : Nat) (owner : Uuid), s.found[i]? = some (x, owner) := by
  induction hx with
  | child hx =>
    obtain ⟨i, hi⟩ := h.first _ (mem_childrenOf.2 ⟨hx, rfl⟩)
    exact ⟨i, _, hi⟩
  | step _ hy ih =>
    obtain ⟨i, owner, hi⟩ := ih
    have hlt : i < s.next :=
      Nat.lt_of_lt_of_le (List.getElem?_eq_some_iff.1 hi).1 hdone
    obtain ⟨j, -, hj⟩ := h.later i hlt _ hi _ (mem_childrenOf.2 ⟨hy, rfl⟩)
    exact ⟨j, _, hj⟩

/-- On a list that has been worked off nothing lies below itself: there would be no last such entity
on it. -/
theorem not_below_self {i : Nat} {p : EntityRef × Uuid} (hi : s.found[i]? = some p) :
    ¬ r.Below p.1 p.1 := by
  intro hp
  have hlt := (List.getElem?_eq_some_iff.1 hi).1
  obtain ⟨m, hm, hself⟩ := hp.exists_child_below_self
  obtain ⟨j, hij, hj⟩ :=
    h.later i (Nat.lt_of_lt_of_le hlt hdone) p hi _ (mem_childrenOf.2 ⟨hm, rfl⟩)
  exact not_below_self hj hself
termination_by s.found.length - i

end Search.Listed

/-! ## The end of the loop -/

namespace Search

theorem exists_iterate_eq {e : EntityRef} (hac : ∀ x, x = e ∨ r.Below e x → ¬ r.Below x x) :
    ∃ n, (advance r)^[n] (start r e) = ⟨r.descendants e, (r.descendants e).length⟩ := by
  refine ⟨_, (iterate_below e r.children.size).trans ?_⟩
  rw [below_snoc, level_size_eq_nil hac, List.append_nil]
  rfl

theorem Done.advance {s : Search} (h : s.Done) : s.advance r = s := by
  rw [Search.advance, List.getElem?_eq_none h]

theorem iterate_eq_of_done {s : Search} {m n : Nat} (hm : ((advance r)^[m] s).Done)
    (hn : ((advance r)^[n] s).Done) : (advance r)^[m] s = (advance r)^[n] s := by
  have hm' := Function.iterate_fixed (hm.advance (r := r)) n
  have hn' := Function.iterate_fixed (hn.advance (r := r)) m
  rw [← Function.iterate_add_apply] at hm' hn'
  rw [← hm', ← hn', Nat.add_comm]

end Search

/-- The loop ends where it comes to no entity that lies below itself, and nowhere else, and what it
has listed is what the enumeration by levels lists. -/
theorem yields_iff {e : EntityRef} {l : List (EntityRef × Uuid)} :
    r.Yields e l ↔ (∀ x, x = e ∨ r.Below e x → ¬ r.Below x x) ∧ l = r.descendants e := by
  constructor
  · intro hyields
    obtain ⟨n, hdone, rfl⟩ := hyields
    have hac : ∀ x, x = e ∨ r.Below e x → ¬ r.Below x x := by
      intro x hx hself
      have hbelow : r.Below e x := by
        rcases hx with rfl | hx
        · exact hself
        · exact hx
      obtain ⟨i, owner, hi⟩ := (Search.listed_iterate r e n).exists_of_below hdone hbelow
      exact (Search.listed_iterate r e n).not_below_self hdone hi hself
    obtain ⟨m, hm⟩ := Search.exists_iterate_eq hac
    have hdone' : ((Search.advance r)^[m] (.start r e)).Done := by
      rw [hm]
      exact Nat.le_refl _
    refine ⟨hac, ?_⟩
    rw [Search.iterate_eq_of_done hdone hdone', hm]
  · rintro ⟨hac, rfl⟩
    obtain ⟨n, hn⟩ := Search.exists_iterate_eq hac
    refine ⟨n, ?_⟩
    rw [hn]
    exact ⟨Nat.le_refl _, rfl⟩

end EntityForest.Registry
