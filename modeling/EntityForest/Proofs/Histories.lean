import EntityForest.Proofs.Keeping

/-! # Histories

Whatever happens in a forest, its factories learn of it through a few calls. Containers make these
calls, and clients may make them as well, with any arguments and while an operation is in progress.
A history lists all calls to all factories, each with the registry it was made in, the latest
first. -/

namespace EntityForest

open Relation (ReflTransGen)
open Registry World

variable [ValueTypes]

/-- What can be asked of a factory. -/
inductive FactoryCall where
  | mint (f : FactoryRef) (owner : ContainerRef) (id : Uuid)
  | retire (f : FactoryRef) (e : EntityRef)
  | sameTree (f : FactoryRef) (a b : ContainerRef)
  | relocate (f : FactoryRef) (e : EntityRef) (target : ContainerRef)
  | adopt (f : FactoryRef) (e : EntityRef) (target : ContainerRef)
  | release (f : FactoryRef) (e : EntityRef)

namespace FactoryCall

/-- The entity that a call names exists. -/
def Valid (r : Registry) : FactoryCall → Prop
  | mint .. | sameTree .. => True
  | retire _ e | relocate _ e _ | adopt _ e _ | release _ e => r.Exists (.ofEntity e)

instance (r : Registry) (call : FactoryCall) : Decidable (call.Valid r) :=
  match call with
  | mint .. | sameTree .. => inferInstanceAs (Decidable True)
  | retire _ e | relocate _ e _ | adopt _ e _ | release _ e =>
    inferInstanceAs (Decidable (r.Exists (.ofEntity e)))

/-- What a call makes of a registry. -/
def perform (r : Registry) : FactoryCall → Registry
  | mint f owner id =>
    match r.mint f owner id with
    | .ok (_, s) => s
    | .error _ => r
  | retire f e => (r.retire f e).2
  | sameTree .. => r
  | relocate f e target => (r.relocate f e target).2
  | adopt f e target => (r.adopt f e target).2
  | release f e => r.release f e

end FactoryCall

namespace Registry

variable {r s : Registry}

/-! ## Steps that are no calls -/

/-- A step that no factory has a part in. What a container holds afterwards was held before, or
exists at least. -/
structure Aside (r s : Registry) : Prop where
  exists_iff : ∀ e, s.Exists (.ofEntity e) ↔ r.Exists (.ofEntity e)
  held_or : ∀ {c id e}, s.Held c id e → (∃ d j, r.Held d j e) ∨ r.Exists (.ofEntity e)
  owners : ∀ f, s.owners f = r.owners f
  config : ∀ f, s.config f = r.config f
  idOf : ∀ e, s.idOf e = r.idOf e
  lifecycle : ∀ e, s.lifecycle e = r.lifecycle e

theorem SameForest.aside (h : SameForest r s) : r.Aside s where
  exists_iff e := h.exists_iff (.ofEntity e)
  held_or hheld := .inl ⟨_, _, (held_congr h.held).1 hheld⟩
  owners := h.owners
  config := h.config
  idOf := h.idOf
  lifecycle := h.lifecycle

theorem Aside.trans {t : Registry} (h : r.Aside s) (k : s.Aside t) : r.Aside t where
  exists_iff e := (k.exists_iff e).trans (h.exists_iff e)
  held_or hheld := by
    rcases k.held_or hheld with ⟨_, _, hheld⟩ | hexists
    · exact h.held_or hheld
    · exact .inr ((h.exists_iff _).1 hexists)
  owners f := (k.owners f).trans (h.owners f)
  config f := (k.config f).trans (h.config f)
  idOf e := (k.idOf e).trans (h.idOf e)
  lifecycle e := (k.lifecycle e).trans (h.lifecycle e)

/-- Writing a container does not concern factories. -/
theorem aside_setContainer {c : ContainerRef} {x : Container}
    (h : ∀ {id e}, x.entities.find? id = some e →
      (∃ d j, r.Held d j e) ∨ r.Exists (.ofEntity e)) : r.Aside (r.setContainer c x) where
  exists_iff e := by
    cases c <;> exact Iff.rfl
  held_or {d id e} hheld := by
    rw [Held, Registry.held, container_setContainer] at hheld
    split at hheld
    · exact h hheld
    · exact .inl ⟨d, id, hheld⟩
  owners f := by rw [Registry.owners, factory_setContainer, Registry.owners]
  config f := by rw [Registry.config, factory_setContainer, Registry.config]
  idOf e := by rw [Registry.idOf, entity_setContainer, Registry.idOf]
  lifecycle e := by rw [Registry.lifecycle, entity_setContainer, Registry.lifecycle]

/-- A container that is added holds nothing. -/
theorem aside_open (r : Registry) {x : Container} (hx : x.entities = ∅) :
    r.Aside (r.setContainer (.standalone r.containers.size) x) :=
  aside_setContainer fun hfound => by
    rw [hx] at hfound
    cases hfound

theorem aside_close (r : Registry) (c : ContainerRef) : r.Aside (r.close c) :=
  aside_setContainer fun hfound => .inl ⟨c, _, hfound⟩

theorem aside_rebind (r : Registry) (c : ContainerRef) (f : FactoryRef) : r.Aside (r.rebind c f) :=
  aside_setContainer fun hfound => .inl ⟨c, _, hfound⟩

theorem aside_leave (r : Registry) (c : ContainerRef) (id : Uuid) :
    r.Aside (r.setHeld c ((r.held c).erase id)) := by
  refine aside_setContainer fun {j x} hfound => .inl ⟨c, j, ?_⟩
  change ((r.held c).erase id).find? j = some x at hfound
  rw [Table.find?_erase] at hfound
  split at hfound
  · cases hfound
  · exact hfound

theorem aside_enter {e : EntityRef} (he : r.Exists (.ofEntity e)) (c : ContainerRef) (id : Uuid) :
    r.Aside (r.setHeld c ((r.held c).insert id e)) := by
  refine aside_setContainer fun {j x} hfound => ?_
  change ((r.held c).insert id e).find? j = some x at hfound
  rw [Table.find?_insert] at hfound
  split at hfound
  · cases hfound
    exact .inr he
  · exact .inl ⟨c, j, hfound⟩

/-! ## What the calls do -/

/-- What bringing an entity to life checks and changes. -/
structure Minted (r : Registry) (f : FactoryRef) (owner : ContainerRef) (id : Uuid) (e : EntityRef)
    (s : Registry) : Prop where
  room : r.overLimit f 1 = none
  unrecorded : id ∉ r.owners f
  exists_iff : ∀ x, s.Exists (.ofEntity x) ↔ r.Exists (.ofEntity x) ∨ x = e
  new : ¬ r.Exists (.ofEntity e)
  held : ∀ {c j x}, s.Held c j x → r.Held c j x
  owners : ∀ g, s.owners g =
    if g = f then (r.owners g).insert id (r.containerId owner) else r.owners g
  config : ∀ g, s.config g = r.config g
  idOf : ∀ x, s.idOf x = if x = e then id else r.idOf x
  lifecycle : ∀ x, s.lifecycle x = if x = e then .alive else r.lifecycle x

/-- What ending the life of an entity checks and changes. -/
structure Retired (r : Registry) (f : FactoryRef) (e : EntityRef) (s : Registry) : Prop
    extends r.SameContents e s where
  recorded : r.idOf e ∈ r.owners f
  alive : r.lifecycle e = .alive
  owners : ∀ g, s.owners g = if g = f then (r.owners g).erase (r.idOf e) else r.owners g
  lifecycle : ∀ x, s.lifecycle x = if x = e then .dead else r.lifecycle x

theorem held_newEntity {id : Uuid} {f : FactoryRef} {c : ContainerRef} {j : Uuid} {x : EntityRef}
    (h : (r.newEntity id f).2.Held c j x) : r.Held c j x := by
  rw [Held, Registry.held, container_newEntity] at h
  split at h
  · cases h
  · exact h

theorem minted_of_mint {f : FactoryRef} {owner : ContainerRef} {id : Uuid} {e : EntityRef}
    (h : r.mint f owner id = .ok (e, s)) : r.Minted f owner id e s := by
  obtain ⟨hroom, hfree, heq⟩ := mint_eq_ok h
  set t := r.setOwners f ((r.owners f).insert id (r.containerId owner)) with ht
  obtain rfl : e = (t.newEntity id f).1 := congrArg Prod.fst heq
  obtain rfl : s = (t.newEntity id f).2 := congrArg Prod.snd heq
  exact {
    room := hroom
    unrecorded := hfree
    exists_iff := fun x => by
      rw [exists_newEntity, ht, exists_setOwners, ContainerRef.ofEntity.injEq]
    new := Nat.lt_irrefl _
    held := fun {c j x} hheld =>
      (held_congr (sameContents_setOwners r f _ x).held).1 (held_newEntity hheld)
    owners := fun g => by
      change t.owners g = _
      rw [ht, owners_setOwners]
      split
      · rename_i hg
        rw [hg]
      · rfl
    config := fun g => r.config_setOwners f _ g
    idOf := fun x => by
      rw [idOf, entity_newEntity]
      split <;> rfl
    lifecycle := fun x => by
      rw [lifecycle, entity_newEntity]
      split <;> rfl }

theorem retired_of_retire {f : FactoryRef} {e : EntityRef} (h : r.retire f e = (true, s)) :
    r.Retired f e s := by
  obtain ⟨hrec, halive, rfl⟩ := retire_eq_true h
  exact {
    toSameContents := (r.sameContents_setLifecycle e .dead).trans (sameContents_setOwners _ f _ e)
    recorded := hrec
    alive := halive
    owners := fun g => by
      rw [owners_setOwners]
      split
      · rename_i hg
        rw [hg]
      · rfl
    lifecycle := fun x => r.lifecycle_setLifecycle e .dead x }

/-! A refusal changes nothing. -/

theorem retire_cases (r : Registry) (f : FactoryRef) (e : EntityRef) :
    (∃ s, r.retire f e = (true, s)) ∨ r.retire f e = (false, r) := by
  unfold retire
  simp only
  split
  · exact .inl ⟨_, rfl⟩
  · exact .inr rfl

theorem relocate_cases (r : Registry) (f : FactoryRef) (e : EntityRef) (target : ContainerRef) :
    (∃ s, r.relocate f e target = (true, s)) ∨ r.relocate f e target = (false, r) := by
  unfold relocate
  split
  · exact .inl ⟨_, rfl⟩
  · exact .inr rfl

theorem adopt_cases (r : Registry) (f : FactoryRef) (e : EntityRef) (target : ContainerRef) :
    (∃ s, r.adopt f e target = (true, s)) ∨ r.adopt f e target = (false, r) := by
  unfold adopt
  split
  · exact .inl ⟨_, rfl⟩
  · exact .inr rfl

end Registry

/-- The ways in which a call can end. A release is never refused. -/
inductive FactoryCall.Outcome (r : Registry) : FactoryCall → Registry → Prop
  | unchanged (call : FactoryCall) : Outcome r call r
  | minted {f : FactoryRef} {owner : ContainerRef} {id : Uuid} {e : EntityRef} {s : Registry}
      (h : r.mint f owner id = .ok (e, s)) : Outcome r (.mint f owner id) s
  | retired {f : FactoryRef} {e : EntityRef} {s : Registry} (h : r.retire f e = (true, s)) :
      Outcome r (.retire f e) s
  | relocated {f : FactoryRef} {e : EntityRef} {target : ContainerRef} {s : Registry}
      (h : r.relocate f e target = (true, s)) : Outcome r (.relocate f e target) s
  | adopted {f : FactoryRef} {e : EntityRef} {target : ContainerRef} {s : Registry}
      (h : r.adopt f e target = (true, s)) : Outcome r (.adopt f e target) s
  | released (f : FactoryRef) (e : EntityRef) : Outcome r (.release f e) (r.release f e)

namespace FactoryCall

theorem outcome_perform (r : Registry) (call : FactoryCall) : call.Outcome r (call.perform r) := by
  cases call with
  | mint f owner id =>
    rw [perform]
    split
    · rename_i e s hmint
      exact .minted hmint
    · exact .unchanged _
  | retire f e =>
    rcases r.retire_cases f e with ⟨s, hretire⟩ | hrefused
    · rw [perform, hretire]
      exact .retired hretire
    · rw [perform, hrefused]
      exact .unchanged _
  | sameTree f a b => exact .unchanged _
  | relocate f e target =>
    rcases r.relocate_cases f e target with ⟨s, hrelocate⟩ | hrefused
    · rw [perform, hrelocate]
      exact .relocated hrelocate
    · rw [perform, hrefused]
      exact .unchanged _
  | adopt f e target =>
    rcases r.adopt_cases f e target with ⟨s, hadopt⟩ | hrefused
    · rw [perform, hadopt]
      exact .adopted hadopt
    · rw [perform, hrefused]
      exact .unchanged _
  | release f e => exact .released f e

namespace Outcome

variable {r s : Registry} {call : FactoryCall} (h : call.Outcome r s)

include h

/-- No call puts anything into a container. -/
theorem held {c : ContainerRef} {id : Uuid} {e : EntityRef} (hheld : s.Held c id e) :
    r.Held c id e := by
  cases h with
  | unchanged => exact hheld
  | minted h => exact (minted_of_mint h).held hheld
  | retired h => exact (held_congr (retired_of_retire h).held).1 hheld
  | relocated h =>
    rw [relocate_eq_true h] at hheld
    exact (held_congr (sameContents_setOwners r _ _ e).held).1 hheld
  | adopted h => exact (held_congr (adopted_of_adopt h).held).1 hheld
  | released f x => exact (released_release r f x).held_iff.1 hheld

theorem config (f : FactoryRef) : s.config f = r.config f := by
  cases h with
  | unchanged => rfl
  | minted h => exact (minted_of_mint h).config f
  | retired h => exact (retired_of_retire h).config f
  | relocated h =>
    rw [relocate_eq_true h]
    exact r.config_setOwners _ _ f
  | adopted h => exact (adopted_of_adopt h).config f
  | released g x => exact (released_release r g x).config f

/-- Calls make entities and lose none. -/
theorem exists_mono (valid : call.Valid r) {e : EntityRef} (he : r.Exists (.ofEntity e)) :
    s.Exists (.ofEntity e) := by
  cases h with
  | unchanged => exact he
  | minted h =>
    exact ((minted_of_mint h).exists_iff e).2 (.inl he)
  | retired h => exact ((retired_of_retire h).exists_iff valid _).2 he
  | relocated h =>
    rw [relocate_eq_true h]
    exact (r.exists_setOwners _ _ _).2 he
  | adopted h => exact ((adopted_of_adopt h).exists_iff valid _).2 he
  | released f x => exact ((released_release r f x).exists_iff valid _).2 he

end Outcome

end FactoryCall

/-! ## Histories -/

/-- The calls that have been made so far, the latest first, each with the registry it was made in,
and the registry by now. -/
structure Stage where
  past : List (Registry × FactoryCall)
  registry : Registry

namespace Stage

def start : Stage := ⟨[], .empty⟩

/-- The stage after a call. -/
def after (a : Stage) (call : FactoryCall) : Stage :=
  ⟨(a.registry, call) :: a.past, call.perform a.registry⟩

/-- From one stage to the next: a factory is set up, a step is taken that is no call, or a call is
made. -/
inductive Advance (a : Stage) : Stage → Prop
  | founded (config : TreeConfig) : Advance a ⟨a.past, (a.registry.newFactory config).2⟩
  | aside {s : Registry} (step : a.registry.Aside s) : Advance a ⟨a.past, s⟩
  | call (call : FactoryCall) (valid : call.Valid a.registry) : Advance a (a.after call)

/-- The second stage is the first one or comes after it. -/
abbrev Leads : Stage → Stage → Prop := ReflTransGen Advance

variable {a b : Stage} {s : Registry}

/-- Only what exists is in a container. -/
theorem exists_of_held (h : start.Leads a) {c : ContainerRef} {id : Uuid} {e : EntityRef}
    (hheld : a.registry.Held c id e) : a.registry.Exists (.ofEntity e) := by
  induction h generalizing c id e with
  | refl => exact absurd hheld not_held_empty
  | @tail a _ _ step ih =>
    cases step with
    | founded config =>
      have hextends := extends_newFactory a.registry config
      exact hextends.exists_mono _ (ih (hextends.held_iff.1 hheld))
    | aside step =>
      rw [step.exists_iff]
      rcases step.held_or hheld with ⟨_, _, hold⟩ | hexists
      · exact ih hold
      · exact hexists
    | call call valid =>
      have houtcome := call.outcome_perform a.registry
      exact houtcome.exists_mono valid (ih (houtcome.held hheld))

theorem Leads.tail_aside (h : a.Leads b) (step : b.registry.Aside s) : a.Leads ⟨b.past, s⟩ :=
  h.tail (.aside step)

/-- Entering a container that lets an entity in. -/
theorem leads_receive (a : Stage) {c delegate : ContainerRef} {e : EntityRef} {arrival : Arrival}
    (he : a.registry.Exists (.ofEntity e))
    (hreceive : a.registry.receive c delegate e = some (arrival, s)) :
    ∃ past, a.Leads ⟨past, s⟩ := by
  obtain ⟨-, -, t, rfl, harrival⟩ := receive_eq_some hreceive
  obtain ⟨call, valid, rfl⟩ :
      ∃ call : FactoryCall, call.Valid a.registry ∧ t = call.perform a.registry := by
    cases arrival with
    | taken =>
      exact ⟨.relocate (a.registry.bound c) e delegate, he, (congrArg Prod.snd harrival).symm⟩
    | imported =>
      exact ⟨.adopt (a.registry.bound c) e delegate, he, (congrArg Prod.snd harrival.2).symm⟩
  have he' := (call.outcome_perform a.registry).exists_mono valid he
  exact ⟨_, Leads.tail_aside (.single (.call call valid)) (aside_enter he' c _)⟩

theorem leads_kill (a : Stage) {c : ContainerRef} {id : Uuid} {e : EntityRef}
    (he : a.registry.Exists (.ofEntity e)) (hkill : a.registry.kill c id = some (e, s)) :
    a.Leads ⟨(a.registry, .retire (a.registry.bound c) e) :: a.past, s⟩ := by
  unfold Registry.kill at hkill
  split at hkill
  · cases hkill
  · rename_i x hx
    split at hkill
    · cases hkill
    · rename_i t hretire
      cases hkill
      have hcalled : a.Leads (a.after (.retire (a.registry.bound c) e)) := .single (.call _ he)
      have ht : (FactoryCall.retire (a.registry.bound c) e).perform a.registry = t :=
        congrArg Prod.snd hretire
      have hheld : t.held c = a.registry.held c := (retired_of_retire hretire).held c
      rw [after, ht] at hcalled
      exact hcalled.tail_aside (hheld ▸ aside_leave t c id)

/-- A new entity is minted; then it enters its container and is marked and seeded. -/
theorem leads_create (a : Stage) {c delegate : ContainerRef} {id : Uuid} {marker : Option Marker}
    {seed : Table Slot Value} {made : Creation}
    (hcreate : a.registry.create c (.ok delegate) id marker seed = .ok made) :
    a.Leads ⟨(a.registry, .mint (a.registry.bound c) delegate id) :: a.past, made.registry⟩ := by
  unfold Registry.create at hcreate
  simp only at hcreate
  split at hcreate
  · cases hcreate
  split at hcreate
  · cases hcreate
  split at hcreate
  · cases hcreate
  split at hcreate
  · cases hcreate
  rename_i e s hmint
  cases hcreate
  have hcalled : a.Leads (a.after (.mint (a.registry.bound c) delegate id)) :=
    .single (.call _ trivial)
  have hs : (FactoryCall.mint (a.registry.bound c) delegate id).perform a.registry = s := by
    rw [FactoryCall.perform,
      show a.registry.mint (a.registry.bound c) delegate id = .ok (e, s) from hmint]
  rw [after, hs] at hcalled
  have he : s.Exists (.ofEntity e) := ((minted_of_mint hmint).exists_iff e).2 (.inr rfl)
  have hentered := aside_enter he c id
  set t := s.setHeld c ((s.held c).insert id e)
  have he' : t.Exists (.ofEntity e) := (hentered.exists_iff e).2 he
  have hmark : SameForest t (marker.elim t fun m => (t.mark e m).2) := by
    cases marker with
    | none => exact .refl t
    | some m => exact sameForest_mark t e he' m
  have hseed := hmark.trans (sameForest_setBag _ (.ofEntity e) (.ofValues seed))
  exact hcalled.tail_aside (hentered.trans hseed.aside)

end Stage

/-! ## Runs -/

variable {χ : Type} {diary : χ → List Registry}

/-- What a client does at a time, calls to factories included. -/
inductive Acting (diary : χ → List Registry) (allowed : Observers χ → Prop) (w : World χ) :
    World χ → Prop
  | doing {w' : World χ} (step : Doing diary allowed w w') : Acting diary allowed w w'
  | call (call : FactoryCall) (valid : call.Valid w.registry) :
      Acting diary allowed w { w with registry := call.perform w.registry }
  | rebind (c : ContainerRef) (f : FactoryRef) :
      Acting diary allowed w { w with registry := w.registry.rebind c f }
  | close (c : ContainerRef) : Acting diary allowed w { w with registry := w.registry.close c }

/-- Listeners that answer an event as they like, and before that act as clients do. The listeners
of their own deeds are of the same kind, and so on to some depth. -/
inductive Observers.Unruly (diary : χ → List Registry) : Observers χ → Prop
  | intro {obs : Observers χ} (allowed : Observers χ → Prop)
      (inner : ∀ o, allowed o → Unruly diary o)
      (responds : ∀ holds l event w,
        ReflTransGen (Acting diary allowed) w (obs.lifecycle holds l event w).2) :
      Unruly diary obs

namespace World

/-- Stages in the order of time, from the start: those that clients have noted, and the present
one. -/
structure ToldBy (diary : χ → List Registry) (w : World χ) (pages : List Stage) (now : Stage) :
    Prop where
  registry : now.registry = w.registry
  noted : pages.map Stage.registry = diary w.client
  inOrder : (.start :: pages ++ [now]).Pairwise Stage.Leads

/-- There is a history of the world. -/
def Told (diary : χ → List Registry) (w : World χ) : Prop := ∃ pages now, w.ToldBy diary pages now

variable {w w' : World χ} {pages : List Stage} {now later : Stage}

namespace ToldBy

variable (h : w.ToldBy diary pages now)

include h

theorem leads : Stage.start.Leads now := by
  obtain ⟨hstart, -⟩ := List.pairwise_cons.1 h.inOrder
  exact hstart now (List.mem_append_right pages (List.mem_singleton_self now))

theorem exists_of_held {c : ContainerRef} {id : Uuid} {e : EntityRef}
    (hheld : w.registry.Held c id e) : w.registry.Exists (.ofEntity e) := by
  rw [← h.registry] at hheld ⊢
  exact Stage.exists_of_held h.leads hheld

/-- Time goes on. -/
theorem advance (hlater : now.Leads later) (hregistry : later.registry = w'.registry)
    (kept : diary w'.client = diary w.client) : w'.ToldBy diary pages later where
  registry := hregistry
  noted := kept ▸ h.noted
  inOrder := pairwise_replace_last .trans h.inOrder hlater

theorem told_aside (step : w.registry.Aside w'.registry)
    (kept : diary w'.client = diary w.client) : w'.Told diary :=
  ⟨pages, ⟨now.past, w'.registry⟩, h.advance (.single (.aside (h.registry ▸ step))) rfl kept⟩

theorem told_call (call : FactoryCall) (valid : call.Valid w.registry) :
    { w with registry := call.perform w.registry : World χ }.Told diary :=
  ⟨pages, now.after call, h.advance (.single (.call call (h.registry ▸ valid)))
    (congrArg call.perform h.registry) rfl⟩

end ToldBy

/-- All steps of all operations are told by histories. -/
theorem keeps_told {obs : Observers χ}
    (heard : ∀ {holds l event w}, w.Told diary → (obs.lifecycle holds l event w).2.Told diary) :
    obs.Keeps (Told diary) where
  heard := heard
  released {w c id e} hw hheld := by
    obtain ⟨pages, now, h⟩ := hw
    exact h.told_call (.release (w.registry.bound c) e) (h.exists_of_held hheld)
  entered {w c delegate e arrival s} hw he hreceive := by
    obtain ⟨pages, now, h⟩ := hw
    have hexists : w.registry.Exists (.ofEntity e) := by
      rcases he with he | ⟨d, id, hheld⟩
      · exact he
      · exact h.exists_of_held hheld
    rw [← h.registry] at hexists hreceive
    obtain ⟨past, hlater⟩ := now.leads_receive hexists hreceive
    exact ⟨pages, _, h.advance hlater rfl rfl⟩
  left {w c id} hw := by
    obtain ⟨pages, now, h⟩ := hw
    exact h.told_aside (aside_leave w.registry c id) rfl
  founded {w config} hw := by
    obtain ⟨pages, now, h⟩ := hw
    exact ⟨pages, _, h.advance (.single (.founded config)) (by rw [h.registry]) rfl⟩
  opened {w x} hw hempty := by
    obtain ⟨pages, now, h⟩ := hw
    exact h.told_aside (aside_open w.registry hempty) rfl
  created {w c delegate id marker seed made} hw hcreate := by
    obtain ⟨pages, now, h⟩ := hw
    rw [← h.registry] at hcreate
    exact ⟨pages, _, h.advance (now.leads_create hcreate) rfl rfl⟩
  killed {w c id e s} hw hkill := by
    obtain ⟨pages, now, h⟩ := hw
    have hexists := h.exists_of_held (killed_of_kill hkill).found
    rw [← h.registry] at hexists hkill
    exact ⟨pages, _, h.advance (now.leads_kill hexists hkill) rfl rfl⟩
  closed {w e} hw := by
    obtain ⟨pages, now, h⟩ := hw
    exact h.told_aside (aside_close w.registry (.ofEntity e)) rfl

theorem told_of_acting {allowed : Observers χ → Prop}
    (hallowed : ∀ o, allowed o → o.Keeps (Told diary)) (step : Acting diary allowed w w')
    (hw : w.Told diary) : w'.Told diary := by
  obtain ⟨pages, now, h⟩ := hw
  cases step with
  | doing step =>
    cases step with
    | deed listens holds deed valid =>
      exact deed.perform_keeps (hallowed _ listens) holds valid ⟨pages, now, h⟩
    | note noted =>
      refine ⟨pages ++ [now], now, h.registry, ?_, ?_⟩
      · rw [List.map_append, h.noted, noted, List.map_singleton, h.registry]
      · exact pairwise_repeat_last (fun _ => .refl) h.inOrder
    | other same kept => exact h.told_aside same.aside kept
  | call call valid => exact h.told_call call valid
  | rebind c f => exact h.told_aside (aside_rebind w.registry c f) rfl
  | close c => exact h.told_aside (aside_close w.registry c) rfl

theorem told_of_actings {allowed : Observers χ → Prop}
    (hallowed : ∀ o, allowed o → o.Keeps (Told diary))
    (steps : ReflTransGen (Acting diary allowed) w w') (hw : w.Told diary) : w'.Told diary := by
  induction steps with
  | refl => exact hw
  | tail _ step ih => exact told_of_acting hallowed step ih

end World

/-- Whatever unruly listeners do is told by a history because what the listeners of their deeds do
is. -/
theorem Observers.Unruly.keeps_told {obs : Observers χ} (h : obs.Unruly diary) :
    obs.Keeps (Told diary) := by
  induction h with
  | intro allowed _ responds ih =>
    exact World.keeps_told fun {holds l event w} hw =>
      told_of_actings ih (responds holds l event w) hw

/-- Who does deeds only is not more unruly. -/
theorem Observers.Reactive.unruly {obs : Observers χ} (h : obs.Reactive diary) :
    obs.Unruly diary := by
  induction h with
  | intro allowed _ responds ih =>
    exact .intro allowed ih fun holds l event w =>
      ReflTransGen.mono (fun _ _ => .doing) _ _ (responds holds l event w)

theorem actings_enact {allowed : Observers χ → Prop} {obs : Observers χ} (listens : allowed obs)
    (holds : Holds) (deeds : List Deed) (w : World χ) :
    ReflTransGen (Acting diary allowed) w (enact obs holds deeds w) :=
  ReflTransGen.mono (fun _ _ => .doing) _ _ (doings_enact listens holds deeds w)

/-- Every run has a history. -/
theorem told_of_run {client : χ} {w : World χ} (blank : diary client = [])
    (steps : ReflTransGen (Acting diary (Observers.Unruly diary)) ⟨.empty, client⟩ w) :
    w.Told diary := by
  refine told_of_actings (fun _ ho => ho.keeps_told) steps ⟨[], .start, rfl, blank.symm, ?_⟩
  exact List.pairwise_pair.2 .refl

/-! ### Several calls -/

/-- Makes those of some calls that are possible. -/
def World.ring (calls : List FactoryCall) (w : World χ) : World χ :=
  calls.foldl (fun w call =>
    if call.Valid w.registry then { w with registry := call.perform w.registry } else w) w

theorem actings_ring {allowed : Observers χ → Prop} (calls : List FactoryCall) (w : World χ) :
    ReflTransGen (Acting diary allowed) w (w.ring calls) := by
  induction calls generalizing w with
  | nil => exact .refl
  | cons call calls ih =>
    rw [World.ring, List.foldl_cons]
    split
    · rename_i valid
      exact .head (.call call valid) (ih _)
    · exact ih w

def Stage.ring (calls : List FactoryCall) (a : Stage) : Stage :=
  calls.foldl (fun a call => if call.Valid a.registry then a.after call else a) a

theorem World.ToldBy.ring {w : World χ} {pages : List Stage} {now : Stage}
    (h : w.ToldBy diary pages now) (calls : List FactoryCall) :
    (w.ring calls).ToldBy diary pages (now.ring calls) := by
  induction calls generalizing w now with
  | nil => exact h
  | cons call calls ih =>
    rw [World.ring, Stage.ring, List.foldl_cons, List.foldl_cons, h.registry]
    split
    · rename_i valid
      have hstep : now.Leads (now.after call) := .single (.call call (h.registry ▸ valid))
      exact ih (h.advance hstep (congrArg call.perform h.registry) rfl)
    · exact ih h

end EntityForest
