import EntityForest.Registry.Lemmas
import EntityForest.Factory.Subtree
import EntityForest.Proofs.Paths
import Mathlib.Data.Finset.Card
import Mathlib.Data.Nat.Find
import Mathlib.Logic.Relation

/-! # Containment

A container of an entity lies directly below the container that holds the entity. The subtree
enumeration goes down level by level and finds exactly what lies below an entity, because a shortest
descent passes only child containers that hold something and none of them twice. -/

namespace EntityForest.Registry

open Relation (ReflTransGen TransGen)

variable [ValueTypes]

/-- A container holds an entity under an identity. -/
def Held (r : Registry) (c : ContainerRef) (id : Uuid) (e : EntityRef) : Prop :=
  (r.held c).find? id = some e

/-- One step up: `d` holds the entity whose child container is `c`. -/
def Up (r : Registry) (c d : ContainerRef) : Prop :=
  ∃ e id, c = .ofEntity e ∧ r.Held d id e

/-- `c` is `d`, or lies somewhere below `d`. -/
def Within (r : Registry) : ContainerRef → ContainerRef → Prop := ReflTransGen r.Up

/-- No container lies below itself. -/
def Acyclic (r : Registry) : Prop := ∀ c, ¬ TransGen r.Up c c

variable {r : Registry}

theorem up_of_held {c : ContainerRef} {id : Uuid} {e : EntityRef} (h : r.Held c id e) :
    r.Up (.ofEntity e) c := ⟨e, id, rfl, h⟩

theorem up_ofEntity_iff {e : EntityRef} {c : ContainerRef} :
    r.Up (.ofEntity e) c ↔ ∃ id, r.Held c id e := by
  constructor
  · intro hheld
    obtain ⟨_, id, heq, h⟩ := hheld
    cases heq
    exact ⟨id, h⟩
  · intro hheld
    obtain ⟨id, h⟩ := hheld
    exact up_of_held h

theorem parent_iff_up {p x : EntityRef} : r.Parent p x ↔ r.Up (.ofEntity x) (.ofEntity p) :=
  up_ofEntity_iff.symm

/-- Only containers of entities lie below something. -/
theorem exists_ofEntity_of_transGen {c d : ContainerRef} (h : TransGen r.Up c d) :
    ∃ e, c = .ofEntity e := by
  obtain ⟨_, ⟨e, -, rfl, -⟩, -⟩ := TransGen.head'_iff.1 h
  exact ⟨e, rfl⟩

theorem below_iff_transGen {e x : EntityRef} :
    r.Below e x ↔ TransGen r.Up (.ofEntity x) (.ofEntity e) := by
  constructor
  · intro h
    induction h with
    | child h => exact .single (parent_iff_up.1 h)
    | step _ h ih => exact .head (parent_iff_up.1 h) ih
  · intro h
    generalize hc : ContainerRef.ofEntity x = c at h
    induction h using TransGen.head_induction_on generalizing x with
    | single h =>
      subst hc
      exact .child (parent_iff_up.2 h)
    | head h hrest ih =>
      subst hc
      obtain ⟨p, rfl⟩ := exists_ofEntity_of_transGen hrest
      exact .step (ih rfl) (parent_iff_up.2 h)

theorem Below.trans {e x y : EntityRef} (h : r.Below e x) (k : r.Below x y) : r.Below e y := by
  induction k with
  | child hy => exact .step h hy
  | step _ hy ih => exact .step ih hy

theorem within_ofEntity_iff {e : EntityRef} {c : ContainerRef} :
    r.Within c (.ofEntity e) ↔ ∃ p, c = .ofEntity p ∧ (p = e ∨ r.Below e p) := by
  rw [Within, Relation.reflTransGen_iff_eq_or_transGen]
  constructor
  · intro hor
    rcases hor with rfl | h
    · exact ⟨e, rfl, .inl rfl⟩
    · obtain ⟨p, rfl⟩ := exists_ofEntity_of_transGen h
      exact ⟨p, rfl, .inr (below_iff_transGen.2 h)⟩
  · intro hor
    rcases hor with ⟨p, rfl, rfl | h⟩
    · exact .inl rfl
    · exact .inr (below_iff_transGen.1 h)

/-- What is below an entity is held within its child container. -/
theorem below_iff_held {e x : EntityRef} :
    r.Below e x ↔ ∃ c id, r.Within c (.ofEntity e) ∧ r.Held c id x := by
  rw [below_iff_transGen, TransGen.head'_iff]
  constructor
  · intro hheld
    obtain ⟨c, hup, hwithin⟩ := hheld
    obtain ⟨id, h⟩ := up_ofEntity_iff.1 hup
    exact ⟨c, id, hwithin, h⟩
  · intro hheld
    obtain ⟨c, id, hwithin, h⟩ := hheld
    exact ⟨c, up_of_held h, hwithin⟩

theorem Acyclic.not_below_self (hac : r.Acyclic) (e : EntityRef) : ¬ r.Below e e :=
  fun h => hac _ (below_iff_transGen.1 h)

/-- The holder of an entity is not within the entity. -/
theorem Acyclic.not_within_of_held (hac : r.Acyclic) {c : ContainerRef} {id : Uuid}
    {e : EntityRef} (h : r.Held c id e) : ¬ r.Within c (.ofEntity e) :=
  fun hw => hac c (TransGen.tail' hw (up_of_held h))

/-- If an entity moves to a container that is not within it, containment stays free of cycles. -/
theorem Acyclic.of_reparent {s : Registry} (hac : r.Acyclic) {e : EntityRef} {c : ContainerRef}
    (hup : ∀ a b, s.Up a b → r.Up a b ∨ (a = .ofEntity e ∧ b = c))
    (hc : ¬ r.Within c (.ofEntity e)) : s.Acyclic :=
  not_cycle_of_step hac hup hc

theorem Acyclic.mono {s : Registry} (hac : r.Acyclic) (hup : ∀ a b, s.Up a b → r.Up a b) :
    s.Acyclic :=
  fun c h => hac c (TransGen.mono hup c c h)

/-! ## Enumerating a subtree -/

theorem mem_childrenOf {p x : EntityRef} {owner : Uuid} :
    (x, owner) ∈ r.childrenOf p ↔ r.Parent p x ∧ owner = r.containerId (.ofEntity p) := by
  simp only [childrenOf, List.mem_map, Prod.mk.injEq, Table.mem_values, Parent]
  constructor
  · intro hmem
    obtain ⟨_, h, rfl, rfl⟩ := hmem
    exact ⟨h, rfl⟩
  · intro hmem
    obtain ⟨h, rfl⟩ := hmem
    exact ⟨x, h, rfl, rfl⟩

@[simp] theorem below_nil (depth : Nat) : r.below depth [] = [] := by
  cases depth <;> rfl

theorem below_succ (depth : Nat) (ps : List EntityRef) :
    r.below (depth + 1) ps =
      ps.flatMap r.childrenOf ++ r.below depth ((ps.flatMap r.childrenOf).map Prod.fst) := by
  rw [below]
  split
  · rename_i hnil
    rw [hnil, List.map_nil, below_nil, List.nil_append]
  · rfl

/-- `q` is exactly `k` levels below `p`. -/
def Down (r : Registry) : Nat → EntityRef → EntityRef → Prop
  | 0, p, q => p = q
  | k + 1, p, q => ∃ m, r.Parent p m ∧ r.Down k m q

theorem mem_below {depth : Nat} {ps : List EntityRef} {x : EntityRef} {owner : Uuid} :
    (x, owner) ∈ r.below depth ps ↔
      ∃ k < depth, ∃ p ∈ ps, ∃ q, r.Down k p q ∧ r.Parent q x ∧
        owner = r.containerId (.ofEntity q) := by
  induction depth generalizing ps with
  | zero => simp [below]
  | succ depth ih =>
    rw [below_succ, List.mem_append, ih]
    simp only [List.mem_flatMap, mem_childrenOf, List.mem_map, Prod.exists]
    constructor
    · intro hmem
      rcases hmem with ⟨p, hp, hx, rfl⟩ | ⟨k, hk, m, ⟨m', o, ⟨p, hp, hm, -⟩, rfl⟩, q, hq, hx, rfl⟩
      · exact ⟨0, Nat.succ_pos _, p, hp, p, rfl, hx, rfl⟩
      · exact ⟨k + 1, Nat.succ_lt_succ hk, p, hp, q, ⟨m', hm, hq⟩, hx, rfl⟩
    · intro hmem
      obtain ⟨k, hk, p, hp, q, hq, hx, rfl⟩ := hmem
      cases k with
      | zero =>
        cases hq
        exact .inl ⟨p, hp, hx, rfl⟩
      | succ k =>
        obtain ⟨m, hm, hq⟩ := hq
        exact .inr ⟨k, Nat.lt_of_succ_lt_succ hk, m, ⟨m, _, ⟨p, hp, hm, rfl⟩, rfl⟩, q, hq, hx, rfl⟩

theorem Down.snoc {k : Nat} {p q x : EntityRef} (h : r.Down k p q) (hx : r.Parent q x) :
    r.Down (k + 1) p x := by
  induction k generalizing p with
  | zero =>
    cases h
    exact ⟨x, hx, rfl⟩
  | succ k ih =>
    obtain ⟨m, hm, h⟩ := h
    exact ⟨m, hm, ih h⟩

theorem Below.of_parent {p m x : EntityRef} (hm : r.Parent p m) (h : x = m ∨ r.Below m x) :
    r.Below p x := by
  rcases h with rfl | h
  · exact .child hm
  · induction h with
    | child hx => exact .step (.child hm) hx
    | step _ hx ih => exact .step ih hx

theorem exists_down_iff {p q : EntityRef} : (∃ k, r.Down k p q) ↔ q = p ∨ r.Below p q := by
  constructor
  · intro hdown
    obtain ⟨k, h⟩ := hdown
    induction k generalizing p with
    | zero => exact .inl (Eq.symm h)
    | succ k ih =>
      obtain ⟨m, hm, h⟩ := h
      exact .inr (.of_parent hm (ih h))
  · intro hor
    rcases hor with rfl | h
    · exact ⟨0, rfl⟩
    · induction h with
      | child h => exact ⟨1, _, h, rfl⟩
      | step _ h ih =>
        obtain ⟨k, hk⟩ := ih
        exact ⟨k + 1, hk.snoc h⟩

theorem index_lt_of_parent {p x : EntityRef} (h : r.Parent p x) :
    p.index < r.children.size := by
  by_contra hle
  obtain ⟨id, hid⟩ := h
  have hblank : r.container (.ofEntity p) = default := Store.get_of_size_le (Nat.not_lt.1 hle)
  rw [held, hblank] at hid
  cases hid

theorem down_add {i j : Nat} {p q : EntityRef} :
    r.Down (i + j) p q ↔ ∃ m, r.Down i p m ∧ r.Down j m q := by
  induction i generalizing p with
  | zero => simp [Down]
  | succ i ih =>
    rw [Nat.succ_add]
    constructor
    · intro h
      obtain ⟨n, hn, h⟩ := h
      obtain ⟨m, hfirst, hrest⟩ := ih.1 h
      exact ⟨m, ⟨n, hn, hfirst⟩, hrest⟩
    · intro h
      obtain ⟨m, ⟨n, hn, hfirst⟩, hrest⟩ := h
      exact ⟨n, hn, ih.2 ⟨m, hfirst, hrest⟩⟩

theorem Down.exists_child {k : Nat} {p q x : EntityRef} (h : r.Down k p q) (hx : r.Parent q x) :
    ∃ y, r.Parent p y := by
  cases k with
  | zero =>
    cases h
    exact ⟨x, hx⟩
  | succ k =>
    obtain ⟨m, hm, -⟩ := h
    exact ⟨m, hm⟩

/-- The levels that are enumerated are enough: the shortest descent passes no entity twice, and each
one on the way has a child container that holds something. -/
theorem exists_down_lt_size {p q x : EntityRef} (hq : q = p ∨ r.Below p q) (hx : r.Parent q x) :
    ∃ k < r.children.size, r.Down k p q := by
  classical
  have hdown := exists_down_iff.2 hq
  obtain ⟨k, hk, hmin⟩ : ∃ k, r.Down k p q ∧ ∀ j, r.Down j p q → k ≤ j :=
    ⟨Nat.find hdown, Nat.find_spec hdown, fun j => Nat.find_min' hdown⟩
  have hpass : ∀ j, ∃ m, j ≤ k → r.Down j p m ∧ r.Down (k - j) m q := by
    intro j
    by_cases hj : j ≤ k
    · obtain ⟨m, hm⟩ := down_add.1 ((Nat.add_sub_cancel' hj).symm ▸ hk)
      exact ⟨m, fun _ => hm⟩
    · exact ⟨p, fun h => absurd h hj⟩
  choose passed hpassed using hpass
  -- an entity passed twice would leave a way round
  have hinj : ∀ i j, i ≤ k → j ≤ k → (passed i).index = (passed j).index → i ≤ j := by
    intro i j hi hj heq
    obtain ⟨-, hrest⟩ := hpassed i hi
    obtain ⟨hfirst, -⟩ := hpassed j hj
    rw [EntityRef.index_inj.1 heq] at hrest
    have hshort := hmin _ (down_add.2 ⟨_, hfirst, hrest⟩)
    omega
  have hmaps : ∀ j ∈ Finset.range (k + 1), (passed j).index ∈ Finset.range r.children.size := by
    intro j hj
    have hj : j ≤ k := Nat.lt_succ_iff.1 (Finset.mem_range.1 hj)
    obtain ⟨y, hy⟩ := (hpassed j hj).2.exists_child hx
    exact Finset.mem_range.2 (index_lt_of_parent hy)
  have hle : (Finset.range (k + 1)).card ≤ (Finset.range r.children.size).card := by
    refine Finset.card_le_card_of_injOn _ hmaps fun i hi j hj heq => ?_
    have hi : i ≤ k := Nat.lt_succ_iff.1 (Finset.mem_range.1 hi)
    have hj : j ≤ k := Nat.lt_succ_iff.1 (Finset.mem_range.1 hj)
    exact Nat.le_antisymm (hinj i j hi hj heq) (hinj j i hj hi heq.symm)
  rw [Finset.card_range, Finset.card_range] at hle
  exact ⟨k, hle, hk⟩

/-- The enumeration lists what is held within the child container of `e`, with the identity of the
container that holds it. -/
theorem mem_descendants {e x : EntityRef} {owner : Uuid} :
    (x, owner) ∈ r.descendants e ↔
      ∃ c id, r.Within c (.ofEntity e) ∧ r.Held c id x ∧ owner = r.containerId c := by
  rw [descendants, mem_below]
  simp only [List.mem_singleton]
  constructor
  · intro hmem
    obtain ⟨k, -, p, rfl, q, hq, ⟨id, hx⟩, rfl⟩ := hmem
    exact ⟨.ofEntity q, id, within_ofEntity_iff.2 ⟨q, rfl, exists_down_iff.1 ⟨k, hq⟩⟩, hx, rfl⟩
  · intro hmem
    obtain ⟨c, id, hc, hx, rfl⟩ := hmem
    obtain ⟨q, rfl, hq⟩ := within_ofEntity_iff.1 hc
    obtain ⟨k, hlt, hk⟩ := exists_down_lt_size hq ⟨id, hx⟩
    exact ⟨k, hlt, e, rfl, q, hk, ⟨id, hx⟩, rfl⟩

theorem exists_mem_descendants {e x : EntityRef} :
    (∃ owner, (x, owner) ∈ r.descendants e) ↔ r.Below e x := by
  simp only [mem_descendants, below_iff_held]
  constructor
  · intro hmem
    obtain ⟨_, c, id, hc, hx, -⟩ := hmem
    exact ⟨c, id, hc, hx⟩
  · intro hmem
    obtain ⟨c, id, hc, hx⟩ := hmem
    exact ⟨_, c, id, hc, hx, rfl⟩

theorem within_iff_descendant {e : EntityRef} {c : ContainerRef} :
    r.Within c (.ofEntity e) ↔ c = .ofEntity e ∨ ∃ p ∈ r.descendants e, c = .ofEntity p.1 := by
  rw [within_ofEntity_iff]
  constructor
  · intro hin
    rcases hin with ⟨p, rfl, rfl | hp⟩
    · exact .inl rfl
    · obtain ⟨owner, hmem⟩ := exists_mem_descendants.2 hp
      exact .inr ⟨(p, owner), hmem, rfl⟩
  · intro hin
    rcases hin with rfl | ⟨⟨p, owner⟩, hmem, rfl⟩
    · exact ⟨e, rfl, .inl rfl⟩
    · exact ⟨p, rfl, .inr (exists_mem_descendants.1 ⟨owner, hmem⟩)⟩

/-! ## Registries that hold the same -/

section Congr

variable {s : Registry} (hheld : ∀ c, s.held c = r.held c)

include hheld

theorem held_congr {c : ContainerRef} {id : Uuid} {e : EntityRef} :
    s.Held c id e ↔ r.Held c id e := by
  rw [Held, hheld, Held]

theorem up_congr : s.Up = r.Up := by
  funext c d
  simp only [Up, held_congr hheld]

theorem within_congr {c d : ContainerRef} : s.Within c d ↔ r.Within c d := by
  rw [Within, up_congr hheld, Within]

theorem acyclic_congr : s.Acyclic ↔ r.Acyclic := by
  rw [Acyclic, up_congr hheld, Acyclic]

end Congr

theorem below_congr {s : Registry} (h : ∀ c, s.container c = r.container c) (depth : Nat)
    (ps : List EntityRef) : s.below depth ps = r.below depth ps := by
  have hchildren : s.childrenOf = r.childrenOf := by
    funext e
    simp only [childrenOf, Registry.held, containerId, h]
  induction depth generalizing ps with
  | zero => rfl
  | succ depth ih => rw [below_succ, below_succ, hchildren, ih]

theorem descendants_congr {s : Registry} (h : ∀ c, s.container c = r.container c)
    (hsize : s.children.size = r.children.size) (e : EntityRef) :
    s.descendants e = r.descendants e := by
  rw [descendants, descendants, hsize, below_congr h]

end EntityForest.Registry
