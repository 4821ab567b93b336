import EntityForest.Attribute.Plain
import EntityForest.Proofs.Histories
import EntityForest.Proofs.Weights

/-! # Limits

A factory may be set up with a limit on the entities that it records. Nothing that containers,
listeners and clients do takes it beyond, and it refuses nothing for which it has room. -/

namespace EntityForest

open Relation (ReflTransGen)

section

variable [ValueTypes]

namespace Registry

variable {r s : Registry} {f : FactoryRef} {e : EntityRef} {target : ContainerRef}

/-! ## No factory exceeds its limit -/

theorem withinLimits_empty : Registry.empty.WithinLimits := by
  intro f limit hlimit
  cases hlimit

namespace WithinLimits

variable (h : r.WithinLimits)

include h

theorem aside (step : r.Aside s) : s.WithinLimits :=
  h.of_size_le step.config fun f => Nat.le_of_eq (congrArg Table.size (step.owners f))

theorem adopted (k : r.Adopted f e target s) : s.WithinLimits := by
  have howners : ∀ g, s.owners g =
      if g = f then
        (r.descendants e).foldl (fun t p => t.insert (r.idOf p.1) p.2)
          ((r.owners g).insert (r.idOf e) (r.containerId target))
      else r.owners g := by
    intro g
    rw [k.owners]
    split
    · rename_i hg
      rw [hg]
    · rfl
  exact h.of_insert_subtree k.config k.may.room howners

theorem outcome {call : FactoryCall} (k : call.Outcome r s) : s.WithinLimits := by
  cases k with
  | unchanged => exact h
  | minted hmint =>
    have k := minted_of_mint hmint
    exact h.of_insert k.config (.inr k.room) k.owners
  | retired hretire =>
    have k := retired_of_retire hretire
    exact h.of_erase k.config k.owners
  | @relocated f e target _ hrelocate =>
    have hmay : r.mayRelocate f e target = true := by
      rw [← fst_relocate, hrelocate]
    obtain ⟨_, hrec, -⟩ := mayRelocate_iff.1 hmay
    have howners : ∀ g, s.owners g =
        if g = f then (r.owners g).insert (r.idOf e) (r.containerId target) else r.owners g := by
      intro g
      rw [relocate_eq_true hrelocate, owners_setOwners]
      split
      · rename_i hg
        rw [hg]
      · rfl
    refine h.of_insert (fun g => ?_) (.inl (Table.mem_of_find? hrec)) howners
    rw [relocate_eq_true hrelocate, config_setOwners]
  | adopted hadopt => exact h.adopted (adopted_of_adopt hadopt)
  | released f e => exact h.released (released_release r f e)

end WithinLimits

/-- A limit that a factory has is its limit from then on. -/
def LimitsStay (r s : Registry) : Prop :=
  ∀ f limit, (r.config f).entityLimit = some limit → (s.config f).entityLimit = some limit

theorem LimitsStay.of_config (h : ∀ f, s.config f = r.config f) : r.LimitsStay s :=
  fun f _ hlimit => (congrArg TreeConfig.entityLimit (h f)).trans hlimit

/-- A new factory comes where there was none, hence no limit. -/
theorem limitsStay_newFactory (r : Registry) (config : TreeConfig) :
    r.LimitsStay (r.newFactory config).2 := by
  intro f limit hlimit
  change ((r.factories.push ⟨config, ∅⟩).get f.index).config.entityLimit = some limit
  rw [Store.get_push]
  split
  · rename_i hf
    have hblank : r.factory f = default := Store.get_of_size_le (Nat.le_of_eq hf.symm)
    rw [Registry.config, hblank] at hlimit
    cases hlimit
  · exact hlimit

end Registry

open Registry World

namespace Stage

variable {a b : Stage}

theorem Advance.withinLimits (step : a.Advance b) (h : a.registry.WithinLimits) :
    b.registry.WithinLimits := by
  cases step with
  | founded config => exact h.newFactory config
  | aside step => exact h.aside step
  | call call => exact h.outcome (call.outcome_perform a.registry)

theorem withinLimits (h : start.Leads a) : a.registry.WithinLimits := by
  induction h with
  | refl => exact withinLimits_empty
  | tail _ step ih => exact step.withinLimits ih

theorem limitsStay (h : a.Leads b) : a.registry.LimitsStay b.registry := by
  induction h with
  | refl => exact fun _ _ hlimit => hlimit
  | @tail b _ _ step ih =>
    refine fun f limit hlimit => ?_
    have hbefore := ih f limit hlimit
    cases step with
    | founded config => exact limitsStay_newFactory b.registry config f limit hbefore
    | aside step => exact LimitsStay.of_config step.config f limit hbefore
    | call call =>
      exact LimitsStay.of_config (call.outcome_perform b.registry).config f limit hbefore

end Stage

/-! ## What is refused for lack of room -/

namespace Registry

variable {r : Registry} {f : FactoryRef} {e : EntityRef} {target : ContainerRef}

/-- The same forest with no limit to what `f` records. -/
def unlimited (r : Registry) (f : FactoryRef) : Registry :=
  r.setFactory f { r.factory f with config := { r.config f with entityLimit := none } }

/-- The factory refuses to adopt the entity, but would do so if it had no limit. -/
def LacksRoom (r : Registry) (f : FactoryRef) (e : EntityRef) (target : ContainerRef) : Prop :=
  r.mayAdopt f e target = false ∧ (r.unlimited f).mayAdopt f e target = true

instance : Decidable (r.LacksRoom f e target) := by
  unfold LacksRoom
  infer_instance

theorem owners_unlimited (g : FactoryRef) : (r.unlimited f).owners g = r.owners g :=
  r.factory_setFactory_congr Factory.owners (by rfl) g

theorem overLimit_unlimited (incoming : Nat) : (r.unlimited f).overLimit f incoming = none := by
  rw [overLimit_eq_none_iff]
  intro limit hlimit
  rw [config, unlimited, factory_setFactory, if_pos rfl] at hlimit
  cases hlimit

theorem descendants_unlimited (x : EntityRef) :
    (r.unlimited f).descendants x = r.descendants x :=
  descendants_congr (fun c => r.container_setFactory f _ c) rfl x

/-- Whether a factory adopts an entity is a matter of the limit and of nothing else that the limit
would bear on. -/
theorem mayAdopt_iff_unlimited : r.mayAdopt f e target = true ↔
    (r.unlimited f).mayAdopt f e target = true ∧
      r.overLimit f ((r.descendants e).length + 1) = none := by
  have hid : ∀ c, (r.unlimited f).containerId c = r.containerId c :=
    fun c => congrArg Container.id (r.container_setFactory f _ c)
  have hentity : ∀ x, (r.unlimited f).entity x = r.entity x := fun x => r.entity_setFactory f _ x
  have hlife : (r.unlimited f).lifecycle e = r.lifecycle e := congrArg Entity.lifecycle (hentity e)
  simp only [mayAdopt, hid, hentity, hlife, descendants_unlimited, owners_unlimited,
    overLimit_unlimited, Bool.and_eq_true, Option.isNone_iff_eq_none, and_true]
  tauto

/-- Lack of room is the reason for a refusal exactly where the entity with all that is listed below
it would exceed the limit. -/
theorem lacksRoom_iff {count : Nat} (hcount : (r.descendants e).length + 1 = count) :
    r.LacksRoom f e target ↔ (r.unlimited f).mayAdopt f e target = true ∧
      ∃ limit, (r.config f).entityLimit = some limit ∧ limit < (r.owners f).size + count := by
  have hover : (∃ limit, (r.config f).entityLimit = some limit ∧
      limit < (r.owners f).size + count) ↔ ¬ r.overLimit f count = none := by
    rw [← Ne, Option.ne_none_iff_exists']
    simp only [overLimit_eq_some_iff]
  rw [LacksRoom, Bool.eq_false_iff, Ne, mayAdopt_iff_unlimited, hcount, hover]
  tauto

theorem mint_eq_entityLimitReached_iff {owner : ContainerRef} {id : Uuid} {limit : Nat} :
    r.mint f owner id = .error (.entityLimitReached limit) ↔
      (r.config f).entityLimit = some limit ∧ limit < (r.owners f).size + 1 := by
  rw [← overLimit_eq_some_iff, mint]
  cases r.overLimit f 1 with
  | some reached => simp
  | none =>
    simp only [reduceCtorEq, iff_false]
    split <;> nofun

/-- No factory records more than its limit allows, and none refuses anything for lack of room unless
the limit would be exceeded. What would be adopted is weighed; where nothing is held twice, this
counts the entities. -/
structure HeedsLimits (r : Registry) : Prop where
  within : r.WithinLimits
  mint_refused : ∀ {f owner id limit}, r.mint f owner id = .error (.entityLimitReached limit) ↔
    (r.config f).entityLimit = some limit ∧ limit < (r.owners f).size + 1
  weighable : ∀ {e}, r.NoReturnBelow e → ∃ weight, r.Weighs weight e
  adopt_refused : ∀ {f e target weight}, r.Weighs weight e →
    (r.LacksRoom f e target ↔ (r.unlimited f).mayAdopt f e target = true ∧
      ∃ limit, (r.config f).entityLimit = some limit ∧ limit < (r.owners f).size + weight e)
  adopt_refused_once : ∀ {f e target}, r.NoReturnBelow e → r.HeldOnceBelow e →
    (r.LacksRoom f e target ↔ (r.unlimited f).mayAdopt f e target = true ∧
      ∃ limit, (r.config f).entityLimit = some limit ∧
        limit < (r.owners f).size + {x | x = e ∨ r.Below e x}.ncard)

theorem WithinLimits.heedsLimits (h : r.WithinLimits) : r.HeedsLimits where
  within := h
  mint_refused := mint_eq_entityLimitReached_iff
  weighable hac := ⟨_, hac.weighs⟩
  adopt_refused hweight := lacksRoom_iff hweight.length_descendants
  adopt_refused_once hac honce := lacksRoom_iff (hac.ncard honce)

end Registry

/-! ## Runs -/

section Run

variable {χ : Type} {diary : χ → List Registry}

/-- In every state that clients have seen, within operations or between them, limits are heeded, and
a limit that a factory has in one state it has in all later ones. -/
theorem limits_heeded {client : χ} {w : World χ} (blank : diary client = [])
    (steps : ReflTransGen (Acting diary (Observers.Unruly diary)) ⟨.empty, client⟩ w) :
    (∀ r ∈ diary w.client ++ [w.registry], r.HeedsLimits) ∧
      (diary w.client ++ [w.registry]).Pairwise LimitsStay := by
  obtain ⟨pages, now, h⟩ := told_of_run blank steps
  have hstates : diary w.client ++ [w.registry] = (pages ++ [now]).map Stage.registry := by
    rw [List.map_append, h.noted, List.map_singleton, h.registry]
  obtain ⟨hstart, hpages⟩ := List.pairwise_cons.1 h.inOrder
  rw [hstates]
  refine ⟨fun r hr => ?_, List.pairwise_map.2 (hpages.imp Stage.limitsStay)⟩
  obtain ⟨a, ha, rfl⟩ := List.mem_map.1 hr
  exact (Stage.withinLimits (hstart a ha)).heedsLimits

end Run

/-! ### Two crowded trees -/

/-- Listeners that note what they see, and make some calls whenever they hear of something. -/
def Observers.ringing (calls : List FactoryCall) : Observers (List Registry) where
  lifecycle _ _ _ w := (.ok (), { w with client := w.client ++ [w.registry] }.ring calls)
  bag _ _ _ w := w
  slack _ := calls.length
  remains _ _ _ := true

theorem Observers.ringing_unruly (calls : List FactoryCall) : (ringing calls).Unruly id :=
  .intro (fun _ => False) (fun _ => False.elim) fun _ _ _ _ =>
    .head (.doing (.note rfl)) (actings_ring calls _)

end

open Registry World
open scoped PlainType

/-- A tree for two entities and one for a single entity, which is there. -/
def paired : World (List Registry) :=
  enact .noting .nothing
    [.newFactory ⟨some 2, 0⟩, .newFactory ⟨some 1, 0⟩, .newContainer (.ofNat 100) ⟨0⟩,
      .newContainer (.ofNat 200) ⟨1⟩, .request (.newEntity (.standalone 1) (.ofNat 9) ∅)]
    ⟨.empty, []⟩

/-- A listener mints two entities when the first tree gets its first one, and that one is released
then. -/
def crowded : World (List Registry) :=
  let ringing := Observers.ringing
    [.mint ⟨0⟩ (.standalone 0) (.ofNat 2), .mint ⟨0⟩ (.standalone 0) (.ofNat 3)]
  (enact ringing .nothing [.request (.newEntity (.standalone 0) (.ofNat 1) ∅)]
    (paired.listen (.standalone 0))).ring [.release ⟨0⟩ ⟨1⟩]

/-- The listener cannot mint its second entity, and there is no room for the released one. -/
theorem limits_heeded_crowded :
    ((∀ r ∈ crowded.client ++ [crowded.registry], r.HeedsLimits) ∧
      (crowded.client ++ [crowded.registry]).Pairwise LimitsStay) ∧
    crowded.client.map (fun r => (r.owners ⟨0⟩).size) = [1] ∧
    (crowded.registry.owners ⟨0⟩).keys = [.ofNat 2] ∧
    crowded.registry.LacksRoom ⟨1⟩ ⟨1⟩ (.standalone 1) := by
  have blank : id ([] : List Registry) = [] := rfl
  refine ⟨limits_heeded blank ?_, by decide +kernel, by decide +kernel, by decide +kernel⟩
  have hpaired : ReflTransGen (Acting id (Observers.Unruly id)) ⟨.empty, []⟩ paired :=
    actings_enact Observers.noting_reactive.unruly .nothing _ _
  have hlisten := hpaired.tail (.doing (doing_listen (c := .standalone 0) (by decide +kernel)))
  exact hlisten.trans
    ((actings_enact (Observers.ringing_unruly _) .nothing _ _).trans (actings_ring _ _))

/-! ### An entity held twice -/

/-- An entity holds two others that both hold the same fourth one, having received it one after the
other. It has been released, and there is a tree for four entities. -/
def diamond : World (List Registry) :=
  let built := enact .noting .nothing
    [.newFactory ⟨none, 0⟩, .newFactory ⟨some 4, 0⟩, .newContainer (.ofNat 100) ⟨0⟩,
      .newContainer (.ofNat 200) ⟨1⟩, .request (.newEntity (.standalone 0) (.ofNat 1) ∅),
      .request (.newEntity (.ofEntity ⟨0⟩) (.ofNat 2) ∅),
      .request (.newEntity (.ofEntity ⟨0⟩) (.ofNat 3) ∅),
      .request (.newEntity (.ofEntity ⟨1⟩) (.ofNat 4) ∅),
      .request (.receive (.ofEntity ⟨2⟩) ⟨3⟩)]
    ⟨.empty, []⟩
  built.ring [.release ⟨0⟩ ⟨0⟩]

/-- Four entities are refused for lack of room in an empty tree with a limit of four, since one of
them is counted twice. -/
theorem not_exceeding_of_lacksRoom :
    ¬ ∀ w : World (List Registry),
      ReflTransGen (Acting id (Observers.Unruly id)) ⟨.empty, []⟩ w →
      ∀ f e target, w.registry.LacksRoom f e target →
        ∃ limit, (w.registry.config f).entityLimit = some limit ∧
          limit < (w.registry.owners f).size + {x | x = e ∨ w.registry.Below e x}.ncard := by
  intro hall
  have hsteps : ReflTransGen (Acting id (Observers.Unruly id)) ⟨.empty, []⟩ diamond :=
    (actings_enact Observers.noting_reactive.unruly .nothing _ _).trans (actings_ring _ _)
  obtain ⟨limit, hlimit, hexceeded⟩ :=
    hall diamond hsteps ⟨1⟩ ⟨0⟩ (.standalone 1) (by decide +kernel)
  have hfour : (diamond.registry.config ⟨1⟩).entityLimit = some 4 := by decide +kernel
  have hnone : (diamond.registry.owners ⟨1⟩).size = 0 := by decide +kernel
  have hcount : {x | x = ⟨0⟩ ∨ diamond.registry.Below ⟨0⟩ x}.ncard = 4 := by
    rw [ncard_atOrBelow]
    decide +kernel
  obtain rfl : 4 = limit := Option.some.inj (hfour.symm.trans hlimit)
  rw [hnone, hcount] at hexceeded
  exact Nat.lt_irrefl _ hexceeded

end EntityForest
