import EntityForest.Proofs.Coherence
import EntityForest.Proofs.Notices

/-! # What a cascade takes

A cascade kills the entities of one container, closes their child containers and goes on below them.
Each part of it takes some entities and shuts some containers; what two parts do after one another
adds up. Neither gets into the way of the other, since the subtrees that they take are disjoint. -/

namespace EntityForest

open Relation (ReflTransGen TransGen)
open Registry World

variable [ValueTypes]

namespace Registry

variable {r s t : Registry}

/-! ## Levels of a sound forest -/

/-- An entity is at one level only below another one. -/
theorem Sound.down_unique (hr : r.Sound) {i j : Nat} {p q : EntityRef} (hi : r.Down i p q)
    (hj : r.Down j p q) : i = j := by
  have hnot : ∀ {k}, ¬ r.Down (k + 1) p p := by
    intro k hk
    obtain ⟨m, hm, hk⟩ := hk
    exact hr.acyclic.not_below_self p (.of_parent hm (exists_down_iff.1 ⟨k, hk⟩))
  induction i generalizing j q with
  | zero =>
    cases hi
    cases j with
    | zero => rfl
    | succ j => exact absurd hj hnot
  | succ i ih =>
    cases j with
    | zero =>
      cases hj
      exact absurd hi hnot
    | succ j =>
      obtain ⟨m, hm, x, ⟨a, hx⟩, rfl⟩ := down_add.1 hi
      obtain ⟨m', hm', y, ⟨b, hy⟩, rfl⟩ := down_add.1 hj
      obtain rfl := ContainerRef.ofEntity.inj (hr.once hx hy)
      rw [ih hm hm']

/-- There are fewer levels above a held entity than child containers. -/
theorem Sound.down_lt_size (hr : r.Sound) {k : Nat} {p q x : EntityRef} (h : r.Down k p q)
    (hx : r.Parent q x) : k < r.children.size := by
  obtain ⟨j, hlt, hj⟩ := exists_down_lt_size (exists_down_iff.1 ⟨k, h⟩) hx
  rw [hr.down_unique h hj]
  exact hlt

/-- Two entities that nothing holds have nothing below them in common. -/
theorem Sound.eq_of_below (hr : r.Sound) {e e' x : EntityRef} (he : ∀ c id, ¬ r.Held c id e)
    (he' : ∀ c id, ¬ r.Held c id e') (h : r.Below e x) (h' : r.Below e' x) : e = e' := by
  have htop : ∀ {e d}, (∀ c id, ¬ r.Held c id e) → r.Within (.ofEntity e) d → d = .ofEntity e := by
    intro e d hnone hw
    rcases ReflTransGen.cases_head hw with heq | ⟨m, hup, -⟩
    · exact heq.symm
    · obtain ⟨id, hheld⟩ := up_ofEntity_iff.1 hup
      exact absurd hheld (hnone m id)
  have hunique : Relator.RightUnique r.Up := fun _ _ _ h h' => hr.up_unique h h'
  have htotal := ReflTransGen.total_of_right_unique hunique
    (below_iff_transGen.1 h).to_reflTransGen (below_iff_transGen.1 h').to_reflTransGen
  rcases htotal with hw | hw
  · exact (ContainerRef.ofEntity.inj (htop he hw)).symm
  · exact ContainerRef.ofEntity.inj (htop he' hw)

/-! ## Settled forests -/

/-- The child container of every entity names itself in events. It is made so, and what a container
names never changes. -/
def SelfNamed (r : Registry) : Prop :=
  ∀ e, r.Exists (.ofEntity e) → r.delegateOf (.ofEntity e) = .ofEntity e

instance (r : Registry) : Decidable r.SelfNamed :=
  decidable_of_iff (∀ i < r.entities.size, r.delegateOf (.ofEntity ⟨i⟩) = .ofEntity ⟨i⟩)
    ⟨fun h e => h e.index, fun h i => h ⟨i⟩⟩

/-- Every entity has a child container of its own. -/
theorem SelfNamed.size_le (h : r.SelfNamed) : r.entities.size ≤ r.children.size := by
  by_contra hlt
  have hnamed := h ⟨r.children.size⟩ (Nat.not_le.1 hlt)
  have hblank : r.container (.ofEntity ⟨r.children.size⟩) = default :=
    Store.get_of_size_le (Nat.le_refl _)
  rw [delegateOf, hblank] at hnamed
  cases hnamed

namespace SelfNamed

variable (h : r.SelfNamed)

include h

theorem of_sameNames (k : SameNames r s) : s.SelfNamed := by
  intro e he
  rw [k.delegateOf, h e ((k.exists_iff _).1 he)]

theorem newDelegating (delegate : ContainerRef) (f : FactoryRef) :
    (r.newDelegating delegate f).2.SelfNamed := by
  intro e he
  have hne : ContainerRef.ofEntity e ≠ .standalone r.containers.size := by
    intro heq
    cases heq
  rw [Registry.newDelegating, delegateOf, container_setContainer, if_neg hne]
  exact h e he

theorem created {c delegate : ContainerRef} {id : Uuid} {e : EntityRef} (hc : r.Exists c)
    (k : r.Created c delegate id e s) : s.SelfNamed := by
  intro x hx
  rw [k.delegateOf]
  split
  · rfl
  · rename_i hne
    exact h x (((k.exists_iff hc _).1 hx).resolve_right hne)

end SelfNamed

/-- What a cascade relies on, at its start and before each part of it. -/
structure Settled (r : Registry) : Prop where
  sound : r.Sound
  full : r.Full
  selfNamed : r.SelfNamed

theorem Razed.settled {gone shut : EntityRef → Prop} (h : r.Razed gone shut s) (hr : r.Settled) :
    s.Settled where
  sound := h.sound hr.sound
  full := h.full hr.sound hr.full
  selfNamed := hr.selfNamed.of_sameNames h.names

theorem Settled.delegateOf (hr : r.Settled) {c : ContainerRef} {id : Uuid} {e : EntityRef}
    (he : r.Held c id e) : r.delegateOf (.ofEntity e) = .ofEntity e :=
  hr.selfNamed e (hr.sound.placed c id e he).2

/-- A held entity can be killed. -/
theorem Settled.exists_kill (hr : r.Settled) {c : ContainerRef} {id : Uuid} {e : EntityRef}
    (he : r.Held c id e) : ∃ s, r.kill c id = some (e, s) := by
  have hretire : (r.entity e).id ∈ r.owners (r.container c).factory ∧ r.lifecycle e = .alive := by
    have hid : (r.entity e).id = id := hr.sound.keyed he
    rw [hid]
    exact ⟨Table.mem_of_find? (hr.full.recorded he), hr.full.alive he⟩
  have hfound : (r.held c).find? id = some e := he
  unfold kill retire
  simp only [hfound, hretire, and_self, if_true]
  exact ⟨_, rfl⟩

/-! ## Rolls of the dead -/

/-- The deaths of some entities, each with the container that held it, in an order in which no death
comes before that of an entity further up. -/
structure Roll (r : Registry) (gone : EntityRef → Prop) (deaths : List Death) :
    Prop where
  mem_iff : ∀ {c x}, ⟨c, x⟩ ∈ deaths ↔ (∃ id, r.Held c id x) ∧ gone x
  nodup : (deaths.map Death.entity).Nodup
  ordered : deaths.Pairwise fun p q => ¬ r.Below q.entity p.entity

namespace Roll

variable {gone gone' shut : EntityRef → Prop} {deaths more : List Death}

theorem nil (r : Registry) : r.Roll (fun _ => False) [] where
  mem_iff := by simp
  nodup := List.nodup_nil
  ordered := .nil

theorem gone_of_mem (h : r.Roll gone deaths) {x : EntityRef} (hx : x ∈ deaths.map Death.entity) :
    gone x := by
  obtain ⟨⟨c, y⟩, hmem, rfl⟩ := List.mem_map.1 hx
  exact (h.mem_iff.1 hmem).2

/-- One roll after another, of deaths none of which is that of an entity further up than one that
has gone before. -/
theorem append (h : r.Roll gone deaths) (hrazed : r.Razed gone shut s) (k : s.Roll gone' more)
    (horder : ∀ x y, gone x → gone' y → ¬ r.Below y x) :
    r.Roll (fun x => gone x ∨ gone' x) (deaths ++ more) where
  mem_iff {c x} := by
    rw [List.mem_append, h.mem_iff, k.mem_iff]
    simp only [hrazed.held_iff, exists_and_right]
    tauto
  nodup := by
    rw [List.map_append, List.nodup_append]
    refine ⟨h.nodup, k.nodup, ?_⟩
    rintro x hx _ hy rfl
    obtain ⟨⟨c, y⟩, hmem, rfl⟩ := List.mem_map.1 hy
    obtain ⟨⟨id, hheld⟩, -⟩ := k.mem_iff.1 hmem
    exact (hrazed.held_iff.1 hheld).2 (h.gone_of_mem hx)
  ordered := by
    rw [List.pairwise_append]
    refine ⟨h.ordered, ?_, ?_⟩
    · refine k.ordered.imp_of_mem fun {p q} _ hq hnot hbelow => hnot ?_
      have hgone' := k.gone_of_mem (List.mem_map_of_mem hq)
      exact (hrazed.below_iff fun y hy hgone => horder y q.entity hgone hgone' hy).2 hbelow
    · intro p hp q hq
      exact horder p.entity q.entity (h.gone_of_mem (List.mem_map_of_mem hp))
        (k.gone_of_mem (List.mem_map_of_mem hq))

end Roll

/-! ## Victims -/

/-- What dies with some entities: they and all that is below them. -/
def Doomed (r : Registry) (victims : List EntityRef) (x : EntityRef) : Prop :=
  x ∈ victims ∨ ∃ v ∈ victims, r.Below v x

/-- What a doomed entity holds is doomed. -/
theorem Doomed.of_held {victims : List EntityRef} {x y : EntityRef} (h : r.Doomed victims x)
    {id : Uuid} (hy : r.Held (.ofEntity x) id y) : r.Doomed victims y := by
  rcases h with hx | ⟨v, hv, hbelow⟩
  · exact .inr ⟨x, hx, .child ⟨id, hy⟩⟩
  · exact .inr ⟨v, hv, .step hbelow ⟨id, hy⟩⟩

/-- Different entities that one container holds. -/
structure Siblings (r : Registry) (c : ContainerRef) (victims : List EntityRef) : Prop where
  held : ∀ {x}, x ∈ victims → ∃ id, r.Held c id x
  nodup : victims.Nodup

/-- With everything in its child container dies all that is below an entity. -/
theorem doomed_children_iff {e x : EntityRef} {victims : List EntityRef}
    (hmem : ∀ v, v ∈ victims ↔ r.Parent e v) : r.Doomed victims x ↔ r.Below e x := by
  constructor
  · intro hdoomed
    rcases hdoomed with hx | ⟨v, hv, hx⟩
    · exact .child ((hmem x).1 hx)
    · exact .of_parent ((hmem v).1 hv) (.inr hx)
  · intro hbelow
    induction hbelow with
    | child hx => exact .inl ((hmem _).2 hx)
    | step _ hx ih =>
      rcases ih with hv | ⟨v, hv, hbelow⟩
      · exact .inr ⟨_, hv, .child hx⟩
      · exact .inr ⟨v, hv, .step hbelow hx⟩

namespace Siblings

variable {c : ContainerRef} {victims : List EntityRef} (h : r.Siblings c victims) (hr : r.Sound)

include h hr

theorem mem_of_mem_ids {id : Uuid} {x : EntityRef} (hx : r.Held c id x)
    (hid : id ∈ victims.map r.idOf) : x ∈ victims := by
  obtain ⟨y, hy, rfl⟩ := List.mem_map.1 hid
  obtain ⟨j, hheld⟩ := h.held hy
  obtain rfl : r.idOf y = j := hr.keyed hheld
  exact Option.some.inj (hx.symm.trans hheld) ▸ hy

theorem not_below {v x : EntityRef} (hv : v ∈ victims) (hx : x ∈ victims) : ¬ r.Below v x := by
  intro hbelow
  obtain ⟨i, hheld⟩ := h.held hv
  obtain ⟨j, hheld'⟩ := h.held hx
  obtain ⟨d, k, hwithin, hheld''⟩ := below_iff_held.1 hbelow
  obtain rfl := hr.once hheld' hheld''
  exact hr.acyclic.not_within_of_held hheld hwithin

/-- What dies with siblings is not above any of them. -/
theorem not_below_of_below {v x y : EntityRef} (hv : v ∈ victims) (hx : x ∈ victims)
    (hy : r.Below v y) : ¬ r.Below y x := by
  intro hbelow
  exact h.not_below hr hv hx (hy.trans hbelow)

theorem roll : r.Roll (· ∈ victims) (victims.map (Death.mk c)) where
  mem_iff {d x} := by
    simp only [List.mem_map, Death.mk.injEq]
    constructor
    · intro hmem
      obtain ⟨_, hx, rfl, rfl⟩ := hmem
      exact ⟨h.held hx, hx⟩
    · intro hmem
      obtain ⟨⟨i, hheld⟩, hx⟩ := hmem
      obtain ⟨j, hheld'⟩ := h.held hx
      exact ⟨x, hx, hr.once hheld' hheld, rfl⟩
  nodup := by
    rw [List.map_map, Function.comp_def, List.map_id']
    exact h.nodup
  ordered := by
    rw [List.pairwise_map]
    exact List.pairwise_of_forall_mem_list fun x hx y hy => h.not_below hr hy hx

/-- What is below the victims is still there when they have died. -/
theorem below_iff_of_razed {shut : EntityRef → Prop} (hrazed : r.Razed (· ∈ victims) shut s)
    {v x : EntityRef} (hv : v ∈ victims) : s.Below v x ↔ r.Below v x :=
  hrazed.below_iff fun _ hbelow hx => h.not_below hr hv hx hbelow

theorem doomed_iff_of_razed {shut : EntityRef → Prop} (hrazed : r.Razed (· ∈ victims) shut s)
    {x : EntityRef} : (x ∈ victims ∨ ∃ v ∈ victims, s.Below v x) ↔ r.Doomed victims x := by
  refine or_congr_right (exists_congr fun v => and_congr_right fun hv => ?_)
  exact h.below_iff_of_razed hr hrazed hv

/-- First the victims, then what is below them. -/
theorem roll_append {shut : EntityRef → Prop} {later : List Death}
    (hrazed : r.Razed (· ∈ victims) shut s)
    (hlater : s.Roll (fun x => ∃ v ∈ victims, s.Below v x) later) :
    r.Roll (r.Doomed victims) (victims.map (Death.mk c) ++ later) := by
  have hroll := (h.roll hr).append hrazed hlater (by
    intro x y hx hy
    obtain ⟨v, hv, hbelow⟩ := hy
    exact h.not_below_of_below hr hv hx (hrazed.below_mono hbelow))
  have hdoomed : (fun x => x ∈ victims ∨ ∃ v ∈ victims, s.Below v x) = r.Doomed victims :=
    funext fun x => propext (h.doomed_iff_of_razed hr hrazed)
  rwa [hdoomed] at hroll

end Siblings

/-- All that a container holds are siblings, in whatever order. -/
theorem Sound.exists_siblings (hr : r.Sound) {c : ContainerRef} {ids : List Uuid}
    (hperm : ids.Perm (r.held c).keys) :
    ∃ victims, victims.map r.idOf = ids ∧ r.Siblings c victims ∧
      ∀ x, x ∈ victims ↔ ∃ id, r.Held c id x := by
  have hlist : ∀ ids : List Uuid, (∀ id ∈ ids, ∃ x, r.Held c id x) → ∃ victims : List EntityRef,
      victims.map r.idOf = ids ∧ ∀ x ∈ victims, ∃ id, r.Held c id x := by
    intro ids
    induction ids with
    | nil => exact fun _ => ⟨[], rfl, fun _ hx => absurd hx List.not_mem_nil⟩
    | cons id ids ih =>
      intro hheld
      obtain ⟨⟨x, hx⟩, hids⟩ := List.forall_mem_cons.1 hheld
      obtain ⟨victims, rfl, hvictims⟩ := ih hids
      refine ⟨x :: victims, ?_, List.forall_mem_cons.2 ⟨⟨id, hx⟩, hvictims⟩⟩
      rw [List.map_cons, hr.keyed hx]
  obtain ⟨victims, rfl, hvictims⟩ := hlist ids fun id hid => mem_held_iff.1 (hperm.mem_iff.1 hid)
  have hnodup : (victims.map r.idOf).Nodup := hperm.nodup_iff.2 (Table.nodup_keys _)
  have hsiblings : r.Siblings c victims := ⟨fun {x} => hvictims x, hnodup.of_map r.idOf⟩
  refine ⟨victims, rfl, hsiblings, fun x => ⟨hsiblings.held, fun hx => ?_⟩⟩
  obtain ⟨id, hx⟩ := hx
  exact hsiblings.mem_of_mem_ids hr hx (hperm.mem_iff.2 (Table.mem_of_find? hx))

end Registry

end EntityForest
