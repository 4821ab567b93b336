import EntityForest.Attribute.Plain
import EntityForest.Proofs.Deaths
import EntityForest.Proofs.Rescues

/-! # Who survives a cascade

A cascade takes what it finds in each child container after closing it, and listeners may have moved
some of it by then. At the end every doomed entity is either dead or alive in one container, and it
is alive because it has been moved, or an entity above it has. -/

namespace EntityForest

open Relation (ReflTransGen)
open Registry World

section

variable [ValueTypes]

namespace Registry

variable {r s : Registry}

/-! ## Counting the living -/

/-- How many of the first `n` entities are not dead. -/
def living (r : Registry) (n : Nat) : Nat :=
  ((Finset.range n).filter fun i => r.lifecycle ⟨i⟩ ≠ .dead).card

theorem living_le (r : Registry) (n : Nat) : r.living n ≤ n := by
  rw [living]
  exact (Finset.card_filter_le _ _).trans_eq (Finset.card_range n)

theorem Later.living_subset (h : r.Later s) (n : Nat) :
    ((Finset.range n).filter fun i => s.lifecycle ⟨i⟩ ≠ .dead) ⊆
      (Finset.range n).filter fun i => r.lifecycle ⟨i⟩ ≠ .dead := by
  intro i hi
  rw [Finset.mem_filter] at hi ⊢
  exact ⟨hi.1, fun hdead => hi.2 (h.dead hdead)⟩

theorem Later.living_le (h : r.Later s) (n : Nat) : s.living n ≤ r.living n :=
  Finset.card_le_card (h.living_subset n)

theorem Later.living_lt (h : r.Later s) {n : Nat} {e : EntityRef} (hn : e.index < n)
    (hr : r.lifecycle e ≠ .dead) (hs : s.lifecycle e = .dead) : s.living n < r.living n := by
  refine Finset.card_lt_card ⟨h.living_subset n, fun hsub => ?_⟩
  have hmem : e.index ∈ (Finset.range n).filter fun i => r.lifecycle ⟨i⟩ ≠ .dead :=
    Finset.mem_filter.2 ⟨Finset.mem_range.2 hn, hr⟩
  exact (Finset.mem_filter.1 (hsub hmem)).2 hs

/-! ## Taking what a container holds -/

/-- At some point after `start` nothing was left in a container under an identity. -/
def Vacated (r₀ : Registry) (c : ContainerRef) (victims : List EntityRef) (start : Registry)
    (b : ContainerRef) (id : Uuid) (r : Registry) : Prop :=
  ∃ s log pending, start.Later s ∧ Ongoing r₀ c victims log pending s ∧ (∀ x, ¬ s.Held b id x) ∧
    s.Later r

section Ongoing

variable {r₀ start : Registry} {c b : ContainerRef} {victims pending : List EntityRef}
  {log : List Attempt} {id : Uuid}

/-- A container that was closed before holds nothing under that identity any more. -/
theorem Vacated.not_held (h : Vacated r₀ c victims start b id r) (hclosed : start.isClosed b = true)
    (x : EntityRef) : ¬ r.Held b id x := by
  obtain ⟨s, _, _, hfrom, -, hnone, hto⟩ := h
  exact fun hx => hnone x (hto.shrinks (hfrom.closed hclosed) hx)

/-- A victim of that identity is dead. -/
theorem Vacated.dead (h : Vacated r₀ c victims start c id r) {v : EntityRef} (hv : v ∈ victims)
    (hid : r₀.idOf v = id) : r.lifecycle v = .dead := by
  obtain ⟨s, _, _, -, hongoing, hnone, hto⟩ := h
  rcases hongoing.victim hv with hdead | ⟨j, hheld⟩
  · exact hto.dead hdead
  · have hj : j = id := by
      rw [← hid, ← hongoing.names.idOf, hongoing.coherent.keyed hheld]
    exact absurd (hj ▸ hheld) (hnone v)

end Ongoing

end Registry

namespace World

variable {χ : Type} {obs : Observers χ} {log : χ → List Attempt} {r₀ : Registry} {c : ContainerRef}
  {victims pending : List EntityRef} {start w : World χ}

/-- What a cascade finds after the child container of a dead entity has been closed. -/
def sealed (e : EntityRef) (w : World χ) : World χ :=
  { w with registry := w.registry.close (.ofEntity e) }

/-- The first level of a cascade below a dead entity. -/
def emptied (obs : Observers χ) (holds : Holds) (e : EntityRef) (w : World χ) :
    (List EntityRef × Except ContainerError Unit) × World χ :=
  killEach obs (.ofEntity e) ((holds.gate (.ofEntity e)).lock (.ofEntity e))
    (heldInOrder obs (.ofEntity e) (sealed e w)) (sealed e w)

theorem shutDown_succ (obs : Observers χ) (depth : Nat) (holds : Holds) (e : EntityRef)
    (w : World χ) : shutDown obs (depth + 1) holds e w =
      eachOfDead holds (shutDown obs depth) (emptied obs holds e w).1.1
        (emptied obs holds e w).2 := rfl

/-- Some of what a container held is dead, and the identities gone through were all vacated. -/
structure Taking (log : χ → List Attempt) (r₀ : Registry) (c : ContainerRef)
    (victims pending : List EntityRef) (start : World χ) (b : ContainerRef) (done : List Uuid)
    (dead : List EntityRef) (w : World χ) : Prop
    extends Underway log r₀ c victims start (dead ++ pending) w where
  vacated : w.AllFit log r₀ victims →
    ∀ id ∈ done, Vacated r₀ c victims start.registry b id w.registry
  fresh : w.AllFit log r₀ victims → ∀ x ∈ dead, start.registry.lifecycle x ≠ .dead

theorem Underway.eachOfDead {f : Holds → EntityRef → World χ → World χ} {dead : List EntityRef}
    (h : Underway log r₀ c victims start (dead ++ pending) w) (holds : Holds)
    (hf : ∀ x ∈ dead, ∀ holds pending v, Underway log r₀ c victims w (x :: pending) v →
      Underway log r₀ c victims w pending (f holds x v)) :
    Underway log r₀ c victims start pending (eachOfDead holds f dead w) := by
  exact h.trans (eachOfDead_collect holds (P := fun dead v => Underway log r₀ c victims w dead v)
    (fun x hx holds pending v hv => hf x hx holds pending v hv) h.restart)

/-- Nothing can be killed only where nothing is held. -/
theorem Taking.missed {b : ContainerRef} {id : Uuid} {done : List Uuid} {dead : List EntityRef}
    (h : Taking log r₀ c victims pending start b done dead w) (hself : r₀.SelfNamed)
    (hkill : w.registry.kill b id = none) :
    Taking log r₀ c victims pending start b (done ++ [id]) dead w := by
  refine { h with vacated := fun hfit j hj => ?_ }
  rcases List.mem_append.1 hj with hj | hj
  · exact h.vacated hfit j hj
  · obtain rfl := List.mem_singleton.1 hj
    have hongoing := h.ongoing hfit
    refine ⟨w.registry, _, _, h.later hfit, hongoing, fun x hx => ?_, .refl _⟩
    obtain ⟨s, hs⟩ := (hongoing.settled hself).exists_kill hx
    rw [hs] at hkill
    cases hkill

theorem Underway.killed {b : ContainerRef} {id : Uuid} {e : EntityRef} {s : Registry}
    (h : Underway log r₀ c victims start pending w) (hr : r₀.Coherent)
    (hsiblings : r₀.Siblings c victims) (k : w.registry.Killed b id e s)
    (htarget : w.AllFit log r₀ victims → Targeted r₀ c victims w.registry b id) :
    Underway log r₀ c victims w (e :: pending) { w with registry := s } := by
  refine h.restart.commit fun hfit => ?_
  have hongoing := h.ongoing hfit
  exact ⟨(k.razed hongoing.coherent.sound).later, hongoing.killed hr hsiblings k (htarget hfit)⟩

/-- An entity has been killed and its death been announced. -/
theorem Taking.taken {b : ContainerRef} {id : Uuid} {done : List Uuid} {dead : List EntityRef}
    {e : EntityRef} {s : Registry} {w' : World χ}
    (h : Taking log r₀ c victims pending start b done dead w) (killed : w.registry.Killed b id e s)
    (hnow : Underway log r₀ c victims w (e :: (dead ++ pending)) { w with registry := s })
    (htold : Underway log r₀ c victims { w with registry := s } (e :: (dead ++ pending)) w') :
    Taking log r₀ c victims pending start b (done ++ [id]) (e :: dead) w' := by
  refine ⟨(h.toUnderway.trans hnow).trans htold, fun hfit j hj => ?_, fun hfit x hx => ?_⟩
  · have hbefore : w.AllFit log r₀ victims := hfit.of_prefix htold.grows
    have hafter := htold.later hfit
    rcases List.mem_append.1 hj with hj | hj
    · obtain ⟨t, _, _, hfrom, hongoing, hnone, hto⟩ := h.vacated hbefore j hj
      exact ⟨t, _, _, hfrom, hongoing, hnone, (hto.trans (hnow.later hbefore)).trans hafter⟩
    · obtain rfl := List.mem_singleton.1 hj
      have hfrom := (h.later hbefore).trans (hnow.later hbefore)
      refine ⟨s, _, _, hfrom, hnow.ongoing hbefore, ?_, hafter⟩
      exact fun x hx => (killed.held_iff.1 hx).2 ⟨rfl, rfl⟩
  · have hbefore : w.AllFit log r₀ victims := hfit.of_prefix htold.grows
    rcases List.mem_cons.1 hx with rfl | hx
    · intro hdead
      have hgone := (h.later hbefore).dead hdead
      rw [killed.alive] at hgone
      cases hgone
    · exact h.fresh hbefore x hx

section Kill

variable (hr : r₀.Coherent) (hself : r₀.SelfNamed) (hsiblings : r₀.Siblings c victims)
  (hobs : obs.Evacuates log) (holds : Holds)

include hr hself hsiblings

theorem Underway.rescues {w' : World χ} (h : Underway log r₀ c victims start pending w)
    (steps : ReflTransGen (Rescue log) w w') : Underway log r₀ c victims start pending w' := by
  induction steps with
  | refl => exact h
  | tail _ step ih => exact ih.rescue hr hself hsiblings step

include hobs

theorem Underway.announceKilled (b : ContainerRef) (e : EntityRef)
    (h : Underway log r₀ c victims start pending w) :
    Underway log r₀ c victims start pending (announceKilled obs holds b e w).2 := by
  unfold World.announceKilled
  split
  · exact h
  · rename_i delegate _
    refine announce_induct (P := fun v => Underway log r₀ c victims start pending v) holds
      (fun holds l v hv => ?_) b h
    exact hv.rescues hr hself hsiblings (hobs holds l ⟨.killed, delegate, e, none⟩ v rfl)

/-- One attempt to kill what is held under an identity. -/
theorem Taking.killHeld {b : ContainerRef} {id : Uuid} {done : List Uuid} {dead : List EntityRef}
    (h : Taking log r₀ c victims pending start b done dead w)
    (htarget : start.AllFit log r₀ victims → Targeted r₀ c victims start.registry b id) :
    Taking log r₀ c victims pending start b (done ++ [id])
      ((killHeld obs holds b id w).1.1.toList ++ dead) (killHeld obs holds b id w).2 := by
  unfold World.killHeld
  cases hkill : w.registry.kill b id with
  | none => exact h.missed hself hkill
  | some victim =>
    obtain ⟨e, s⟩ := victim
    have killed := killed_of_kill hkill
    have hnow := h.toUnderway.killed hr hsiblings killed
      fun hfit => (htarget (hfit.of_prefix h.grows)).later (h.later hfit)
    exact h.taken killed hnow
      (hnow.restart.announceKilled hr hself hsiblings hobs (holds.keepEntities [e]) b e)

theorem taking_killEach {b : ContainerRef} (ids : List Uuid)
    (h : Underway log r₀ c victims start pending w)
    (htarget : w.AllFit log r₀ victims → ∀ id ∈ ids, Targeted r₀ c victims w.registry b id) :
    Taking log r₀ c victims pending w b ids (killEach obs b holds ids w).1.1
      (killEach obs b holds ids w).2 := by
  have hcollected : Taking log r₀ c victims pending w b ids ((killEach obs b holds ids w).1.1 ++ [])
      (killEach obs b holds ids w).2 := killEach_collect
    (P := fun done dead v => Taking log r₀ c victims pending w b done dead v) holds
    (fun {done dead dead' v} hperm hv => ⟨hv.toUnderway.perm (hperm.append_right pending),
      hv.vacated, fun hfit x hx => hv.fresh hfit x (hperm.mem_iff.1 hx)⟩)
    (fun holds id done dead v hid hv => hv.killHeld hr hself hsiblings hobs holds
      fun hfit => htarget hfit id hid)
    ⟨h.restart, fun _ id hid => absurd hid List.not_mem_nil,
      fun _ x hx => absurd hx List.not_mem_nil⟩
  rwa [List.append_nil] at hcollected

/-- The child container of a dead entity is emptied after it has been closed, so that the entity
need not wait any longer. -/
theorem taking_emptied {e : EntityRef} (h : Underway log r₀ c victims start (e :: pending) w) :
    Taking log r₀ c victims pending (sealed e w) (.ofEntity e)
      (heldInOrder obs (.ofEntity e) (sealed e w)) (emptied obs holds e w).1.1
      (emptied obs holds e w).2 := by
  have hclosing := razed_close w.registry e
  have hclosed : (sealed e w).registry.isClosed (.ofEntity e) = true := hclosing.closed rfl
  have hshut : Underway log r₀ c victims w (e :: pending) (sealed e w) :=
    h.restart.commit fun hfit => ⟨hclosing.later, (h.ongoing hfit).close e⟩
  have htargeted : (sealed e w).AllFit log r₀ victims → ∀ id,
      Targeted r₀ c victims (sealed e w).registry (.ofEntity e) id := by
    intro hfit id
    obtain ⟨hdoomed, hdead⟩ := (hshut.ongoing hfit).waiting List.mem_cons_self
    exact .inr ⟨e, hdoomed, hdead, rfl⟩
  have htaken := taking_killEach hr hself hsiblings hobs
    ((holds.gate (.ofEntity e)).lock (.ofEntity e)) (heldInOrder obs (.ofEntity e) (sealed e w))
    hshut fun hfit id _ => htargeted hfit id
  refine { htaken with ongoing := fun hfit => ?_ }
  refine ((htaken.ongoing hfit).perm List.perm_middle.symm).settle
    ((htaken.later hfit).closed hclosed) fun id y hy => ?_
  have hold := (htaken.later hfit).shrinks hclosed hy
  have hid := (heldInOrder_perm obs (.ofEntity e) (sealed e w)).mem_iff.2 (Table.mem_of_find? hold)
  exact (htaken.vacated hfit id hid).not_held hclosed y hy

/-- With enough levels left, everything below a dead entity is taken. -/
theorem Underway.shutDown {depth : Nat} {e : EntityRef}
    (h : Underway log r₀ c victims start (e :: pending) w)
    (hdepth : w.AllFit log r₀ victims → w.registry.living r₀.entities.size < depth) :
    Underway log r₀ c victims start pending (shutDown obs depth holds e w) := by
  -- whoever is taken at one level was alive before, so that fewer are left for the next
  induction depth generalizing start pending e w holds with
  | zero =>
    exact ⟨h.grows, fun hfit => absurd (hdepth hfit) (Nat.not_lt_zero _),
      fun hfit => absurd (hdepth hfit) (Nat.not_lt_zero _)⟩
  | succ depth ih =>
    have hshut : Underway log r₀ c victims start (e :: pending) (sealed e w) :=
      h.commit fun hfit => ⟨(razed_close w.registry e).later, (h.ongoing hfit).close e⟩
    have htaken := taking_emptied hr hself hsiblings hobs holds h
    rw [shutDown_succ]
    generalize emptied obs holds e w = taken at htaken ⊢
    obtain ⟨⟨dead, outcome⟩, u⟩ := taken
    refine hshut.trans (htaken.toUnderway.eachOfDead holds fun x hx holds pending' v hv => ?_)
    refine ih holds hv fun hfit => ?_
    have hu : u.AllFit log r₀ victims := hfit.of_prefix hv.grows
    have hgone := (hv.ongoing hfit).waiting List.mem_cons_self
    have hlater := (htaken.later hu).trans (hv.later hfit)
    have hindex := hsiblings.index_lt hr.sound hgone.1
    have hfewer := hlater.living_lt hindex (htaken.fresh hu x hx) hgone.2
    have hmany := (razed_close w.registry e).later.living_le r₀.entities.size
    have hlevels := hdepth (hu.of_prefix htaken.grows)
    exact hfewer.trans_le (hmany.trans (Nat.le_of_lt_succ hlevels))

/-- After the deaths in one container everything below is taken. -/
theorem Underway.shutDownEach {dead : List EntityRef}
    (h : Underway log r₀ c victims start (dead ++ pending) w) :
    Underway log r₀ c victims start pending (shutDownEach obs holds dead w) := by
  refine h.eachOfDead holds fun x hx holds pending' v hv =>
    hv.shutDown hr hself hsiblings hobs holds fun hfit => ?_
  have hongoing := hv.ongoing hfit
  have hsize := (hself.of_sameNames hongoing.names).size_le
  rw [hongoing.names.size_eq] at hsize
  have hmany := v.registry.living_le r₀.entities.size
  unfold depth
  omega

/-- After a call that kills some entities of a container nothing below them waits any longer, and
these entities themselves are dead. -/
theorem underway_killListed (hlog : log w.client = []) (hw : w.registry = r₀) :
    Underway log r₀ c victims w [] (killListed obs holds c (victims.map r₀.idOf) w).2 ∧
      ((killListed obs holds c (victims.map r₀.idOf) w).2.AllFit log r₀ victims → ∀ v ∈ victims,
        (killListed obs holds c (victims.map r₀.idOf) w).2.registry.lifecycle v = .dead) := by
  subst hw
  have hbegin : Underway log w.registry c victims w [] w :=
    ⟨List.prefix_rfl, fun _ => .refl _, fun _ => hlog ▸ ongoing_start hr hsiblings⟩
  have htaken := taking_killEach hr hself hsiblings hobs (holds.lock c)
    (victims.map w.registry.idOf) hbegin fun _ id hid => .inl ⟨rfl, hid⟩
  have hafter := (htaken.toUnderway.restart).shutDownEach hr hself hsiblings hobs (holds.keep [c])
  refine ⟨htaken.toUnderway.trans hafter, fun hfit v hv => (hafter.later hfit).dead ?_⟩
  exact (htaken.vacated (hfit.of_prefix hafter.grows) _ (List.mem_map_of_mem hv)).dead hv rfl

end Kill

end World

/-! ## What becomes of the doomed -/

namespace Registry

/-- Nothing holds a dead entity, and no tree has a record of it. -/
structure Perished (s : Registry) (x : EntityRef) : Prop where
  dead : s.lifecycle x = .dead
  unheld : ∀ d id, ¬ s.Held d id x
  unrecorded : ∀ f, s.idOf x ∉ s.owners f

/-- A living entity is in one container, which its tree has on record; and it is there because it,
or one that it is below, was moved to the place where it is. -/
structure Rescued (s : Registry) (log : List Attempt) (x : EntityRef) : Prop where
  alive : s.lifecycle x = .alive
  placed : ∃ d, (∀ b id, s.Held b id x ↔ b = d ∧ id = s.idOf x) ∧
    (s.owners (s.bound d)).find? (s.idOf x) = some (s.containerId d)
  moved : ∃ a ∈ log, ∃ y, a.Moves y ∧ (∃ id, s.Held a.dst id y) ∧ (x = y ∨ s.Below y x)

variable {r₀ s : Registry} {c : ContainerRef} {victims : List EntityRef} {log : List Attempt}

theorem Coherent.rescued (h : s.Coherent) {d : ContainerRef} {id : Uuid} {x : EntityRef}
    (hx : s.Held d id x)
    (hmoved : ∃ a ∈ log, ∃ y, a.Moves y ∧ (∃ j, s.Held a.dst j y) ∧ (x = y ∨ s.Below y x)) :
    s.Rescued log x where
  alive := h.alive hx
  placed := by
    obtain rfl := h.keyed hx
    refine ⟨d, fun b j => ⟨fun hb => ⟨h.once hb hx, (h.keyed hb).symm⟩, ?_⟩, h.recorded hx⟩
    rintro ⟨rfl, rfl⟩
    exact hx
  moved := hmoved

namespace Ongoing

variable (h : Ongoing r₀ c victims log [] s) (hr : r₀.Coherent) (hsiblings : r₀.Siblings c victims)

include h hr hsiblings

theorem perished {x : EntityRef} (hx : r₀.Doomed victims x) (hdead : s.lifecycle x = .dead) :
    s.Perished x := by
  have hunheld : ∀ d id, ¬ s.Held d id x := by
    intro d id hheld
    rw [h.coherent.alive hheld] at hdead
    cases hdead
  refine ⟨hdead, hunheld, fun f hmem => ?_⟩
  -- the record would be that of another entity, which had the same identity before
  obtain ⟨owner, hrec⟩ := Table.mem_iff_find?.1 hmem
  obtain ⟨b, y, -, -, hy⟩ := h.coherent.sound.witnessed hrec
  obtain ⟨d, hold⟩ := h.held_before hr hsiblings hy
  obtain ⟨d', j, hold'⟩ := hsiblings.held_of_doomed hx
  obtain rfl : j = s.idOf x := by rw [← hr.keyed hold', h.names.idOf]
  obtain rfl := hr.covers.eq_of_held hr.sound hold hold'
  exact hunheld b _ hy

/-- What becomes of an entity follows from what becomes of the one that held it. -/
theorem fate_of_held {p x : EntityRef} {id : Uuid} (hp : r₀.Doomed victims p)
    (hx : r₀.Held (.ofEntity p) id x) (hfate : s.Perished p ∨ s.Rescued log p) :
    s.Perished x ∨ s.Rescued log x := by
  rcases h.dead_or_held hx with hdead | ⟨d, hd⟩
  · exact .inl (h.perished hr hsiblings (hp.of_held hx) hdead)
  · rcases h.held hd with hold | ⟨-, a, ha, hmoves, hdst⟩
    · obtain rfl := hr.once hold hx
      rcases hfate with hperished | hrescued
      · rcases h.emptied hp hperished.dead with hnone | ⟨-, hempty⟩
        · exact absurd hnone List.not_mem_nil
        · exact absurd hd (hempty id x)
      · obtain ⟨a, ha, y, hmoves, hthere, hp⟩ := hrescued.moved
        refine .inr (h.coherent.rescued hd ⟨a, ha, y, hmoves, hthere, .inr ?_⟩)
        rcases hp with rfl | hbelow
        · exact .child ⟨id, hd⟩
        · exact .step hbelow ⟨id, hd⟩
    · exact .inr (h.coherent.rescued hd ⟨a, ha, x, hmoves, ⟨id, hdst ▸ hd⟩, .inl rfl⟩)

theorem fate (hvictims : ∀ v ∈ victims, s.lifecycle v = .dead) {x : EntityRef}
    (hx : r₀.Doomed victims x) : s.Perished x ∨ s.Rescued log x := by
  have hvictim : ∀ v ∈ victims, s.Perished v ∨ s.Rescued log v :=
    fun v hv => .inl (h.perished hr hsiblings (.inl hv) (hvictims v hv))
  rcases hx with hx | ⟨v, hv, hbelow⟩
  · exact hvictim x hx
  · induction hbelow with
    | child hparent =>
      obtain ⟨id, hheld⟩ := hparent
      exact h.fate_of_held hr hsiblings (.inl hv) hheld (hvictim v hv)
    | step hbelow hparent ih =>
      obtain ⟨id, hheld⟩ := hparent
      exact h.fate_of_held hr hsiblings (.inr ⟨v, hv, hbelow⟩) hheld ih

end Ongoing

/-- The end of a cascade out of which listeners have moved entities: what was to die has perished or
been rescued, no attempt has failed, and the forest is coherent again. An entity that was moved out
is alive where it was moved to, and below the victims nothing has died but in the child container of
a dead entity. -/
structure Survived (r₀ : Registry) (victims : List EntityRef) (log : List Attempt) (s : Registry) :
    Prop where
  fate : ∀ {x}, r₀.Doomed victims x → s.Perished x ∨ s.Rescued log x
  saved : ∀ a ∈ log, ∀ {x}, a.Moves x → r₀.Outside victims a.dst →
    s.Rescued log x ∧ ∃ id, s.Held a.dst id x
  cause : ∀ {x}, r₀.Doomed victims x → s.Perished x → Cause r₀ victims log s x
  answered : ∀ a ∈ log, a.answer = .ok true
  coherent : s.Coherent

theorem Ongoing.survived (h : Ongoing r₀ c victims log [] s) (hr : r₀.Coherent)
    (hsiblings : r₀.Siblings c victims) (hvictims : ∀ v ∈ victims, s.lifecycle v = .dead) :
    r₀.Survived victims log s where
  fate := h.fate hr hsiblings hvictims
  saved a ha x hmoves hout := by
    obtain ⟨id, hheld⟩ := h.saved a ha hmoves hout
    exact ⟨h.coherent.rescued hheld ⟨a, ha, x, hmoves, ⟨id, hheld⟩, .inl rfl⟩, id, hheld⟩
  cause hx hperished := h.cause hx hperished.dead
  answered := h.answered
  coherent := h.coherent

end Registry

section Cascade

variable {χ : Type} {obs : Observers χ} {log : χ → List Attempt} {c : ContainerRef} {w : World χ}

namespace World

theorem survived_killListed (hobs : obs.Evacuates log) (holds : Holds) (hr : w.registry.Coherent)
    (hself : w.registry.SelfNamed) (hlog : log w.client = []) {victims : List EntityRef}
    (hsiblings : w.registry.Siblings c victims)
    (hfit : (killListed obs holds c (victims.map w.registry.idOf) w).2.AllFit log w.registry
      victims) :
    w.registry.Survived victims
      (log (killListed obs holds c (victims.map w.registry.idOf) w).2.client)
      (killListed obs holds c (victims.map w.registry.idOf) w).2.registry := by
  obtain ⟨hend, hdead⟩ := underway_killListed hr hself hsiblings hobs holds hlog rfl
  exact (hend.ongoing hfit).survived hr hsiblings (hdead hfit)

theorem killHeld_of_kill {holds : Holds} {id : Uuid} {e : EntityRef} {s : Registry}
    (h : w.registry.kill c id = some (e, s)) : (killHeld obs holds c id w).1.1 = some e := by
  rw [killHeld, h]

theorem kill_of_not_held (holds : Holds) {id : Uuid} (h : (w.registry.held c).find? id = none) :
    (kill obs holds c id w).2 = w := by
  have hnone : w.registry.kill c id = none := by rw [Registry.kill, h]
  rw [kill, killHeld, hnone]
  rfl

end World

/-- Whatever listeners move out of a cascade while it is under way, it ends well. -/
theorem survivors_of_cascade (hobs : obs.Evacuates log) (holds : Holds) (c : ContainerRef)
    (hr : w.registry.Coherent) (hself : w.registry.SelfNamed) (hlog : log w.client = []) :
    (∀ id,
      ((Request.kill c id).perform obs holds w).2.AllFit log w.registry
        ((w.registry.held c).find? id).toList →
      w.registry.Survived ((w.registry.held c).find? id).toList
        (log ((Request.kill c id).perform obs holds w).2.client)
        ((Request.kill c id).perform obs holds w).2.registry) ∧
    (∀ {order}, order.Perm (w.registry.held c).keys →
      ∃ victims, victims.map w.registry.idOf = order ∧
        (∀ x, x ∈ victims ↔ ∃ id, w.registry.Held c id x) ∧
        (((Request.killAll c order).perform obs holds w).2.AllFit log w.registry victims →
          w.registry.Survived victims
            (log ((Request.killAll c order).perform obs holds w).2.client)
            ((Request.killAll c order).perform obs holds w).2.registry)) := by
  refine ⟨fun id => ?_, fun {order} hperm => ?_⟩
  · cases hfind : (w.registry.held c).find? id with
    | none =>
      intro _
      have hsiblings : w.registry.Siblings c [] :=
        ⟨fun hx => absurd hx List.not_mem_nil, List.nodup_nil⟩
      rw [Request.perform, World.kill_of_not_held holds hfind, hlog]
      exact (ongoing_start hr hsiblings).survived hr hsiblings
        fun _ hv => absurd hv List.not_mem_nil
    | some e =>
      have hsettled : w.registry.Settled := ⟨hr.sound, hr.full, hself⟩
      have hsiblings : w.registry.Siblings c [e] :=
        ⟨fun hx => ⟨id, List.mem_singleton.1 hx ▸ hfind⟩, List.nodup_singleton e⟩
      obtain ⟨s, hkill⟩ := hsettled.exists_kill hfind
      rw [Request.perform, World.kill_eq_killListed holds (World.killHeld_of_kill hkill)]
      have hsurvived := World.survived_killListed hobs holds hr hself hlog hsiblings
      rw [List.map_singleton, hr.keyed hfind] at hsurvived
      exact hsurvived
  · obtain ⟨victims, rfl, hsiblings, hmem⟩ := hr.sound.exists_siblings hperm
    exact ⟨victims, rfl, hmem, World.survived_killListed hobs holds hr hself hlog hsiblings⟩

end Cascade

/-! ## Listeners that save one entity -/

/-- Listeners that agree to everything. -/
def Observers.agreeable (χ : Type) (there : Bool) : Observers χ where
  lifecycle _ _ _ w := (.ok (), w)
  bag _ _ _ w := w
  slack _ := 0
  remains _ _ _ := there

theorem Observers.agreeable_calm (χ : Type) (there : Bool) : (agreeable χ there).Calm :=
  ⟨fun _ _ _ _ _ => rfl, fun _ _ _ w _ => .refl w.registry⟩

/-- A transfer of which a note is kept. -/
def World.attempt (there : Bool) (holds : Holds) (src : ContainerRef) (id : Uuid)
    (dst : ContainerRef) (w : World (List Attempt)) : World (List Attempt) :=
  let moved := w.transfer (.agreeable _ there) holds src id dst
  { moved.2 with client := w.client ++ [⟨w.registry, src, id, dst, moved.1⟩] }

/-- Listeners that move one entity when another one dies. -/
def Observers.saving (there : Bool) (dead : EntityRef) (src : ContainerRef) (key : Uuid)
    (dst : ContainerRef) : Observers (List Attempt) :=
  { agreeable _ there with
    lifecycle := fun holds _ event w =>
      (.ok (), if event.kind = .killed ∧ event.entity = dead then w.attempt there holds src key dst
        else w) }

theorem Observers.saving_evacuates (there : Bool) (dead : EntityRef) (src : ContainerRef)
    (key : Uuid) (dst : ContainerRef) : (saving there dead src key dst).Evacuates id := by
  intro holds l event w _
  change ReflTransGen (Rescue id) w (ite _ _ _)
  split
  · exact .single (.transfer (agreeable_calm _ there) holds src key dst rfl)
  · exact .refl

/-- What can be checked of an attempt to move `x` from the child container of `p` to a container
that stands alone. -/
def Attempt.checks (a : Attempt) (p x : EntityRef) (i : Nat) : Bool :=
  a.src = .ofEntity p ∧ a.dst = .standalone i ∧ (a.before.held a.src).find? a.id = some x ∧
    a.before.isClosed a.dst = false ∧ a.before.bound a.dst = a.before.bound a.src ∧
    a.before.Exists a.dst ∧ a.before.containerId a.dst ≠ (default : Container).id ∧
    ∀ d ∈ a.before.stored, a.before.InUse d →
      a.before.containerId d = a.before.containerId a.dst → d = a.dst

theorem Attempt.fit_of_checks {a : Attempt} {r : Registry} {victims : List EntityRef}
    {p x : EntityRef} {i : Nat} (hp : r.Doomed victims p) (h : a.checks p x i) :
    a.Fit r victims := by
  obtain ⟨hsrc, hdst, hmoves, hopen, htree, hpresent, hid, halone⟩ := of_decide_eq_true h
  refine ⟨p, x, hp, hsrc, hmoves, ?_, ?_, hopen, htree, hpresent, eq_of_stored hid halone⟩
  · rw [hdst, hsrc]
    nofun
  · rw [hdst, within_ofEntity_iff]
    nofun

end

open scoped PlainType

/-- A tree with three entities, each below the one before, and a second container. -/
def lifeboat : List Call := generations ++ [.newContainer (.ofNat 200) ⟨0⟩]

/-- A listener at the first entity hears of the death of the second one. -/
def launched : World (List Attempt) where
  registry := (trail lifeboat).2.registry.setListeners (.ofEntity ⟨0⟩) ⟨[⟨0⟩]⟩
  client := []

theorem coherent_launched : launched.registry.Coherent :=
  (sameForest_setListeners (c := .ofEntity ⟨0⟩) _ (by decide +kernel) ⟨[⟨0⟩]⟩).coherent
    (coherent_trail (by decide +kernel) (by decide +kernel) (by decide +kernel) (by decide +kernel)
      (by decide +kernel) (withinLimits_iff.2 (by decide +kernel)))

/-- When the second entity has died the third one is moved to the second container. -/
def Observers.launching : Observers (List Attempt) :=
  .saving true ⟨1⟩ (.ofEntity ⟨1⟩) (.ofNat 3) (.standalone 1)

theorem Observers.launching_evacuates : launching.Evacuates id := saving_evacuates _ _ _ _ _

theorem survivors_of_cascade_launched :
    launched.registry.Survived [⟨0⟩]
        ((Request.kill (.standalone 0) (.ofNat 1)).perform .launching .nothing launched).2.client
        ((Request.kill (.standalone 0) (.ofNat 1)).perform .launching .nothing
          launched).2.registry ∧
      ((Request.kill (.standalone 0) (.ofNat 1)).perform .launching .nothing
        launched).2.registry.lifecycle ⟨2⟩ = .alive := by
  have hcheck : ∀ a ∈
      ((Request.kill (.standalone 0) (.ofNat 1)).perform .launching .nothing launched).2.client,
      a.checks ⟨1⟩ ⟨2⟩ 1 ∧ a.before.delegateOf a.dst = a.dst := by decide +kernel
  have hdoomed : launched.registry.Doomed [⟨0⟩] ⟨1⟩ :=
    .inr ⟨⟨0⟩, List.mem_singleton_self _, .child ⟨.ofNat 2, by decide +kernel⟩⟩
  have hend := (survivors_of_cascade Observers.launching_evacuates .nothing (.standalone 0)
    coherent_launched (by decide +kernel) rfl).1 (.ofNat 1)
  have hfind : (launched.registry.held (.standalone 0)).find? (.ofNat 1) = some ⟨0⟩ := by
    decide +kernel
  rw [hfind] at hend
  refine ⟨hend fun a ha => ?_, by decide +kernel⟩
  exact ⟨Attempt.fit_of_checks hdoomed (hcheck a ha).1, (hcheck a ha).2⟩

/-! ## A destination whose delegate is gone -/

/-- A tree with one container, in which an entity has lived and died, and two others, one below the
other. -/
def shipwreck : List Call :=
  buried ++ [.create (.standalone 0) (.ofNat 1) none ∅, .create (.ofEntity ⟨1⟩) (.ofNat 2) none ∅]

theorem coherent_shipwreck : (trail shipwreck).2.registry.Coherent :=
  coherent_trail (by decide +kernel) (by decide +kernel) (by decide +kernel) (by decide +kernel)
    (by decide +kernel) (withinLimits_iff.2 (by decide +kernel))

/-- A second container of the tree names the dead entity in events; a listener at the first one
hears of deaths. -/
def adrift : World (List Attempt) where
  registry := ((trail shipwreck).2.registry.newDelegating (.ofEntity ⟨0⟩) ⟨0⟩).2.setListeners
    (.standalone 0) ⟨[⟨0⟩]⟩
  client := []

theorem coherent_adrift : adrift.registry.Coherent := by
  have hextends := extends_newDelegating (trail shipwreck).2.registry (.ofEntity ⟨0⟩) ⟨0⟩
  have hsound := hextends.sound coherent_shipwreck.sound
  have hfull := hextends.full coherent_shipwreck.sound coherent_shipwreck.full
  exact (sameForest_setListeners (c := .standalone 0) _ (by decide +kernel) ⟨[⟨0⟩]⟩).coherent
    ⟨.of_sound_full hsound hfull (distinct_of_listed hsound.placed (by decide +kernel)),
      withinLimits_iff.2 (by decide +kernel)⟩

/-- When the entity 1 has died the entity 2 is offered to the second container, whose delegate is
gone. -/
def Observers.clutching : Observers (List Attempt) :=
  .saving false ⟨1⟩ (.ofEntity ⟨1⟩) (.ofNat 2) (.standalone 1)

theorem Observers.clutching_evacuates : clutching.Evacuates id := saving_evacuates _ _ _ _ _

/-- It is released by its tree and received by nobody. -/
theorem not_survived_unnamed :
    ¬ ∀ (obs : Observers (List Attempt)) (w : World (List Attempt)) (c : ContainerRef) (id : Uuid)
        (e : EntityRef), obs.Evacuates (fun attempts => attempts) → w.registry.Coherent →
        w.registry.SelfNamed → w.client = [] → w.registry.Held c id e →
        (∀ a ∈ ((Request.kill c id).perform obs .nothing w).2.client, a.Fit w.registry [e]) →
        w.registry.Survived [e] ((Request.kill c id).perform obs .nothing w).2.client
          ((Request.kill c id).perform obs .nothing w).2.registry := by
  intro hclaim
  have hcheck : ∀ a ∈
      ((Request.kill (.standalone 0) (.ofNat 1)).perform .clutching .nothing adrift).2.client,
      a.checks ⟨1⟩ ⟨2⟩ 1 := by decide +kernel
  have hanswer : ∃ a ∈
      ((Request.kill (.standalone 0) (.ofNat 1)).perform .clutching .nothing adrift).2.client,
      a.answer = .error (.exportedNotTransferred (.ofNat 2)) := by decide +kernel
  have hheld : adrift.registry.Held (.standalone 0) (.ofNat 1) ⟨1⟩ := by
    unfold Registry.Held
    decide +kernel
  have hend := hclaim .clutching adrift (.standalone 0) (.ofNat 1) ⟨1⟩
    Observers.clutching_evacuates coherent_adrift (by decide +kernel) rfl hheld
    fun a ha => Attempt.fit_of_checks (.inl (List.mem_singleton_self _)) (hcheck a ha)
  obtain ⟨a, ha, hfailed⟩ := hanswer
  have hsuccess := hend.answered a ha
  rw [hfailed] at hsuccess
  cases hsuccess

end EntityForest
