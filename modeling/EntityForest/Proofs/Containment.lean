import EntityForest.Attribute.Plain
import EntityForest.Proofs.Calls
import EntityForest.Proofs.Enumeration

/-! # Entities that hold themselves

No import leads below the entity that is imported, for it is checked against the containers. A move
inside a tree is checked against records, which know entities by identity: where they are misled, an
entity can be moved below itself. Then neither it nor anything above it can be enumerated. -/

namespace EntityForest

open Relation (ReflTransGen TransGen)
open Registry World

section

variable [ValueTypes]

namespace Registry

variable {r s : Registry}

/-- The destination lies within the entity, and yet both factories take the transfer for a move
inside a tree that does not lead there. -/
structure Misled (r : Registry) (src : ContainerRef) (id : Uuid) (dst : ContainerRef)
    (e : EntityRef) : Prop where
  ready : Ready r src id dst e
  inside : r.Within dst (.ofEntity e)
  isLocal : looksLocal r src dst = true
  may : r.mayRelocate (r.bound dst) e (r.delegateOf dst) = true
  absent : r.idOf e ∉ r.held dst

instance (r : Registry) (src : ContainerRef) (id : Uuid) (dst : ContainerRef) (e : EntityRef) :
    Decidable (r.Misled src id dst e) :=
  decidable_of_iff
    ((r.containerId dst ≠ r.containerId src ∧ r.isClosed dst = false ∧
        (r.held src).find? id = some e ∧ r.idOf e ≠ r.containerId dst) ∧
      (dst = .ofEntity e ∨ ∃ p ∈ r.descendants e, dst = .ofEntity p.1) ∧
      looksLocal r src dst = true ∧ r.mayRelocate (r.bound dst) e (r.delegateOf dst) = true ∧
      r.idOf e ∉ r.held dst)
    ⟨fun ⟨⟨ha, ho, hf, hs⟩, hi, hl, hm, hn⟩ =>
      ⟨⟨ha, ho, hf, hs⟩, within_iff_descendant.2 hi, hl, hm, hn⟩,
    fun ⟨⟨ha, ho, hf, hs⟩, hi, hl, hm, hn⟩ =>
      ⟨⟨ha, ho, hf, hs⟩, within_iff_descendant.1 hi, hl, hm, hn⟩⟩

/-! ## One change -/

theorem Created.acyclic_of_labelled {c delegate : ContainerRef} {id : Uuid} {e : EntityRef}
    (h : r.Created c delegate id e s) (hr : r.Labelled) (hc : r.Exists c) (hac : r.Acyclic) :
    s.Acyclic := by
  refine hac.of_reparent (e := e) (c := c) ?_ ?_
  · rintro _ b ⟨x, j, rfl, hx⟩
    rcases h.held_or hc hx with ⟨rfl, -, rfl⟩ | hold
    · exact .inr ⟨rfl, rfl⟩
    · exact .inl (up_of_held hold)
  · -- nothing is within an entity that was not there
    intro hw
    rcases ReflTransGen.cases_tail hw with heq | ⟨d, -, x, j, -, hheld⟩
    · exact h.ne_of_exists hc heq.symm
    · exact h.not_exists (hr.placed _ _ _ hheld).1

namespace Moved

variable {src dst : ContainerRef} {id : Uuid} {e : EntityRef} (h : r.Moved src id dst e s)

include h

theorem acyclic (hac : r.Acyclic) (hout : ¬ r.Within dst (.ofEntity e)) : s.Acyclic := by
  refine hac.of_reparent (e := e) (c := dst) ?_ hout
  rintro _ b ⟨x, j, rfl, hx⟩
  rcases h.held_or hx with ⟨rfl, -, rfl⟩ | hold
  · exact .inr ⟨rfl, rfl⟩
  · exact .inl (up_of_held hold)

variable (he : r.Held src id e) (hne : src ≠ dst)

include he

/-- Everything but the entity that moves stays where it is. -/
theorem held_of_ne {c : ContainerRef} {j : Uuid} {x : EntityRef} (hx : r.Held c j x)
    (hxe : x ≠ e) : s.Held c j x := by
  rw [Held, h.held]
  split
  · rename_i hc
    subst hc
    have hj : j ≠ id := by
      rintro rfl
      exact hxe (Option.some.inj (hx.symm.trans he))
    rw [Table.find?_erase, if_neg hj]
    exact hx
  · split
    · rename_i hc
      subst hc
      have hj : j ≠ r.idOf e := by
        rintro rfl
        exact h.absent (mem_held_iff.2 ⟨x, hx⟩)
      rw [Table.find?_insert, if_neg hj]
      exact hx
    · exact hx

theorem within_of_within {c : ContainerRef} (hw : r.Within c (.ofEntity e)) :
    s.Within c (.ofEntity e) := by
  induction hw using ReflTransGen.head_induction_on with
  | refl => exact .refl
  | head hup _ ih =>
    obtain ⟨x, j, rfl, hx⟩ := hup
    by_cases hxe : x = e
    · rw [hxe]
      exact .refl
    · exact .head (up_of_held (h.held_of_ne he hx hxe)) ih

include hne

/-- An entity that moves to a container within it holds itself. -/
theorem below_self (hin : r.Within dst (.ofEntity e)) : s.Below e e := by
  have hentered : s.Held dst (r.idOf e) e := by
    rw [Held, h.held, if_neg hne.symm, if_pos rfl, Table.find?_insert_self]
  rw [below_iff_transGen]
  exact .head' (up_of_held hentered) (h.within_of_within he hin)

end Moved

/-- Where the books are complete, factories are not misled. -/
theorem Tidy.not_misled (h : r.Tidy) {src dst : ContainerRef} {id : Uuid} {e : EntityRef} :
    ¬ r.Misled src id dst e := by
  intro hmisled
  have he := hmisled.ready.found
  have hdst : r.Exists dst := by
    obtain ⟨p, rfl, rfl | hbelow⟩ := within_ofEntity_iff.1 hmisled.inside
    · exact (h.sound.placed _ _ _ he).2
    · obtain ⟨c, j, -, hheld⟩ := below_iff_held.1 hbelow
      exact (h.sound.placed _ _ _ hheld).2
  exact h.full.outside_of_mayRelocate h.sound he (h.formed.delegate_id hdst) hmisled.may
    hmisled.inside

/-- Containment has no cycle, and what a factory relies on is in order. -/
structure Layered (r : Registry) : Prop where
  labelled : r.Labelled
  acyclic : r.Acyclic

end Registry

namespace World

variable {r s : Registry}

theorem culled_acyclic (h : Culled r s) (hac : r.Acyclic) : s.Acyclic := by
  induction h with
  | refl => exact hac
  | tail _ hstep ih =>
    cases hstep with
    | kill killed =>
      refine ih.mono ?_
      rintro _ b ⟨x, j, rfl, hx⟩
      exact up_of_held (killed.held_mono hx)
    | close e => exact (acyclic_congr (Registry.held_close _ _)).2 ih
    | same same => exact (acyclic_congr same.held).2 ih

/-- Only where the factories are misled does an entity pass to a container within it. -/
theorem Passage.outside {src dst : ContainerRef} {id : Uuid} {e : EntityRef}
    (h : Passage r src id dst e s) (hr : r.Labelled) (ready : Ready r src id dst e)
    (hdst : r.Exists dst) (hmisled : ¬ r.Misled src id dst e) : ¬ r.Within dst (.ofEntity e) := by
  have hself := hr.formed.delegate_id hdst
  have hchild := hr.formed.child_id e (hr.placed _ _ _ ready.found).2
  cases h with
  | taken isLocal taken =>
    exact fun hin => hmisled ⟨ready, hin, isLocal, taken.may, taken.absent⟩
  | adopted _ imported => exact imported.may.outside hchild hself ready.other
  | imported _ imported =>
    have released := released_release r (r.bound src) e
    rw [← released.within_iff]
    apply imported.may.outside
    · rw [released.containerId, released.idOf, hchild]
    · rw [released.containerId, released.containerId, released.delegateOf, hself]
    · rw [released.containerId, released.idOf]
      exact ready.other

theorem Passage.acyclic {src dst : ContainerRef} {id : Uuid} {e : EntityRef}
    (h : Passage r src id dst e s) (hac : r.Acyclic) (hout : ¬ r.Within dst (.ofEntity e)) :
    s.Acyclic := by
  have hheld : ∀ c, (offered r src dst e).held c = r.held c := held_offered e
  exact h.moved.acyclic ((acyclic_congr hheld).2 hac) fun hw => hout ((within_congr hheld).1 hw)

end World

/-! ## Calls and runs -/

namespace Call

/-- The call is a transfer for which the factories are misled. -/
def Misled (r : Registry) : Call → Prop
  | transfer src id dst => ∃ e, r.Misled src id dst e
  | _ => False

instance (r : Registry) (call : Call) : Decidable (call.Misled r) :=
  match call with
  | .transfer src id dst =>
    decidable_of_iff (∃ e ∈ (r.held src).find? id, r.Misled src id dst e)
      ⟨fun ⟨e, _, h⟩ => ⟨e, h⟩, fun ⟨e, h⟩ => ⟨e, h.ready.found, h⟩⟩
  | .newFactory _ | .newContainer .. | .create .. | .kill .. | .killAll .. | .transferAll .. =>
    inferInstanceAs (Decidable False)

theorem Effect.layered {r s : Registry} {call : Call} (h : call.Effect r s) (hr : r.Layered)
    (valid : call.Valid r) (hmisled : ¬ call.Misled r) : s.Layered := by
  refine ⟨h.labelled hr.labelled valid, ?_⟩
  cases h with
  | refused => exact hr.acyclic
  | newFactory config => exact (acyclic_congr (extends_newFactory r config).held).2 hr.acyclic
  | newContainer id f => exact (acyclic_congr (extends_newContainer r id f).held).2 hr.acyclic
  | created created => exact created.acyclic_of_labelled hr.labelled valid hr.acyclic
  | killed culled => exact culled_acyclic culled hr.acyclic
  | killedAll culled => exact culled_acyclic culled hr.acyclic
  | @stranded src dst id e => exact (acyclic_congr (held_offered e)).2 hr.acyclic
  | moved ready passage same =>
    have hout := passage.outside hr.labelled ready valid.2 fun h => hmisled ⟨_, h⟩
    exact (acyclic_congr same.held).2 (passage.acyclic hr.acyclic hout)

variable {χ : Type} {obs : Observers χ} {w : World χ} {call : Call}

/-- A transfer for which the factories are misled goes through. -/
theorem below_self_of_misled (hobs : obs.Passive) (hr : w.registry.Labelled)
    (valid : call.Valid w.registry) (hmisled : call.Misled w.registry) :
    ∃ e, (call.perform obs w).2.registry.Below e e := by
  cases call with
  | transfer src id dst =>
    obtain ⟨e, hready, hin, hlocal, hmay, habsent⟩ := hmisled
    have hmove := transferring_transfer .nothing hobs src id dst w
    rw [perform, snd_failure?]
    generalize World.transfer obs .nothing src id dst w = moved at hmove
    obtain ⟨answer, w'⟩ := moved
    change Transferring obs w src id dst answer w' at hmove
    cases hmove with
    | sameContainer heq => exact absurd heq hready.apart
    | closed _ hclosed =>
      rw [hready.isOpen] at hclosed
      cases hclosed
    | absent _ _ hnone => exact absurd (mem_held_iff.2 ⟨e, hready.found⟩) hnone
    | self _ _ hfound hself =>
      obtain rfl := hready.unique hfound
      exact absurd hself hready.other
    | dropped _ hne => exact absurd (hr.formed.self_named src valid.1) hne
    | refused ready' _ hrefused =>
      obtain rfl := hready.unique ready'.found
      rcases hrefused with ⟨hnone, -⟩ | ⟨hne, -⟩
      · rcases receive_eq_none hnone with hclosed | hpresent | ⟨hstays, -⟩
        · rw [hready.isOpen] at hclosed
          cases hclosed
        · exact absurd hpresent habsent
        · rw [hmay] at hstays
          cases hstays
      · exact absurd (hr.formed.self_named dst valid.2) hne
    | stranded _ leaves _ =>
      rw [hlocal] at leaves
      cases leaves
    | @moved x _ _ _ _ ready' received same _ _ =>
      obtain rfl := hready.unique ready'.found
      have hmoved := (passage_of_receive hready received).moved
      rw [offered_of_local x hlocal] at hmoved
      refine ⟨x, ?_⟩
      rw [below_iff_transGen, up_congr same.held, ← below_iff_transGen]
      exact hmoved.below_self hready.found hready.ne hin
  | _ => exact hmisled.elim

end Call

/-- No entity holds itself, and every subtree can be enumerated. -/
def Registry.Enumerable (r : Registry) : Prop :=
  ∀ e, ¬ r.Below e e ∧ r.Yields e (r.descendants e)

theorem Registry.Acyclic.enumerable {r : Registry} (h : r.Acyclic) : r.Enumerable :=
  fun e => ⟨h.not_below_self e, yields_iff.2 ⟨fun x _ => h.not_below_self x, rfl⟩⟩

theorem Registry.SameForest.enumerable {r s : Registry} (h : SameForest r s) (hs : s.Enumerable) :
    r.Enumerable := by
  apply Acyclic.enumerable
  rw [← acyclic_congr h.held]
  intro c hc
  obtain ⟨e, rfl⟩ := exists_ofEntity_of_transGen hc
  exact (hs e).1 (below_iff_transGen.2 hc)

section Run

variable {χ : Type} {obs : Observers χ} {past : List (World χ × Call)} {w : World χ}

/-- A run keeps entities from holding themselves, and its factories from enumerating without end,
exactly if they are never misled. They are not unless a transfer has crossed trees or stranded an
entity before. -/
theorem enumerable_iff_never_misled (hobs : obs.Passive) (run : Run obs past w)
    (single : ∀ p ∈ past, p.2.IsSingle) :
    ((∀ v ∈ reached past w, v.registry.Enumerable) ↔ ∀ p ∈ past, ¬ p.2.Misled p.1.registry) ∧
      ((∀ p ∈ past, ¬ p.2.Crosses obs p.1 ∧ ¬ p.2.Strands obs p.1) →
        ∀ p ∈ past, ¬ p.2.Misled p.1.registry) := by
  refine ⟨?_, fun hstays => ?_⟩
  · refine run.forall_reached_iff Layered Enumerable Call.IsSingle
      (fun v call => call.Misled v.registry) ?_ ⟨labelled_empty, sound_empty.acyclic⟩ ?_
      (fun hr => hr.acyclic.enumerable) ?_ (fun hsame hs => hsame.enumerable hs) single
    · intro w call hr valid hsingle hmisled
      exact (Call.effect_perform hobs hsingle w).layered hr valid hmisled
    · intro r s hsame hr
      exact ⟨hr.labelled.of_sameForest hsame, (acyclic_congr hsame.held).2 hr.acyclic⟩
    · intro w call hr valid _ hmisled hall
      obtain ⟨e, he⟩ := Call.below_self_of_misled hobs hr.labelled valid hmisled
      exact (hall e).1 he
  · rintro ⟨v, call⟩ hp hmisled
    have htidy := run.tidy hobs single (fun p hp => (hstays p hp).2) (fun p hp => (hstays p hp).1) v
      (List.mem_cons_of_mem w (List.mem_map_of_mem hp))
    cases call with
    | transfer src id dst =>
      obtain ⟨e, hmisled⟩ := hmisled
      exact htidy.not_misled hmisled
    | _ => exact hmisled

end Run

end

open scoped PlainType

/-- The entity 5 of the second tree moves into the entity 1 of the first, which each factory takes
for its own, and then that one moves into it. -/
def swallowed : List Call :=
  twins ++ [.transfer (.standalone 1) (.ofNat 5) (.ofEntity ⟨0⟩),
    .transfer (.standalone 0) (.ofNat 1) (.ofEntity ⟨3⟩)]

/-- A run in which a transfer crosses trees, and yet no factory is ever misled. -/
theorem enumerable_mixUp :
    Run .quiet (trail mixUp).1 (trail mixUp).2 ∧ (∃ p ∈ (trail mixUp).1, p.2.Crosses .quiet p.1) ∧
      ∀ v ∈ reached (trail mixUp).1 (trail mixUp).2, v.registry.Enumerable := by
  have hrun : Run .quiet (trail mixUp).1 (trail mixUp).2 := run_trail (by decide +kernel)
  exact ⟨hrun, by decide +kernel, (enumerable_iff_never_misled Observers.quiet_passive hrun
    (by decide +kernel)).1.2 (by decide +kernel)⟩

theorem not_enumerable_swallowed :
    Run .quiet (trail swallowed).1 (trail swallowed).2 ∧
      (∀ p ∈ (trail swallowed).1, p.2.IsSingle ∧ (p.2.perform .quiet p.1).1 = none) ∧
      (trail swallowed).2.registry.Below ⟨0⟩ ⟨0⟩ ∧
      ∀ l, ¬ (trail swallowed).2.registry.Yields ⟨0⟩ l := by
  have hself : (trail swallowed).2.registry.Below ⟨0⟩ ⟨0⟩ :=
    .step (.child ⟨.ofNat 5, by decide +kernel⟩) (x := ⟨3⟩) ⟨.ofNat 1, by decide +kernel⟩
  refine ⟨run_trail (by decide +kernel), by decide +kernel, hself, fun l hl => ?_⟩
  exact (yields_iff.1 hl).1 ⟨0⟩ (.inl rfl) hself

end EntityForest
