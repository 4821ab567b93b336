import EntityForest.Attribute.Plain
import EntityForest.Proofs.Histories

/-! # Ownership

A factory is handed an entity and looks for a record of its identity. It should act on the entities
of its own tree only: those that it has brought to life or adopted, for as long as they have neither
been released nor ended. A history tells which ones these are. -/

namespace EntityForest

open Relation (ReflTransGen)
open Registry World

section

variable [ValueTypes]

namespace FactoryCall

/-- The factory that is called. -/
def callee : FactoryCall → FactoryRef
  | mint f .. | retire f _ | sameTree f .. | relocate f .. | adopt f .. | release f _ => f

/-- The call brings the entity into the tree of its factory. -/
def Brings (r : Registry) (x : EntityRef) : FactoryCall → Prop
  | mint f owner id => ∃ s, r.mint f owner id = .ok (x, s)
  | adopt f e target => (r.adopt f e target).1 = true ∧ (x = e ∨ r.Below e x)
  | retire .. | sameTree .. | relocate .. | release .. => False

/-- The call takes the entity out of the tree of `g`. A released entity is in no tree, and what is
below it leaves the tree of the factory that is called. -/
def Takes (r : Registry) (g : FactoryRef) (x : EntityRef) : FactoryCall → Prop
  | retire f e => (r.retire f e).1 = true ∧ x = e
  | release f e => x = e ∨ g = f ∧ r.Below e x
  | mint .. | sameTree .. | relocate .. | adopt .. => False

end FactoryCall

/-- The entity lives in the tree of the factory, after some calls. -/
def Lives : List (Registry × FactoryCall) → FactoryRef → EntityRef → Prop
  | [], _, _ => False
  | (r, call) :: past, g, x =>
    call.Brings r x ∧ g = call.callee ∨
      ¬ call.Brings r x ∧ ¬ call.Takes r g x ∧ Lives past g x

/-- An entity that is alive, but not in the tree of the factory. -/
structure Outsider (past : List (Registry × FactoryCall)) (r : Registry) (f : FactoryRef)
    (x : EntityRef) : Prop where
  found : r.Exists (.ofEntity x)
  alive : r.lifecycle x = .alive
  outside : ¬ Lives past f x

/-- After this call, some factory takes an entity for one of its own that is none. An identity is
recorded for a second entity, or what is released leaves a record behind. -/
def FactoryCall.Confuses (past : List (Registry × FactoryCall)) (r : Registry) :
    FactoryCall → Prop
  | .mint f owner id =>
    (∃ e s, r.mint f owner id = .ok (e, s)) ∧
      ((∃ g, g ≠ f ∧ id ∈ r.owners g) ∨ ∃ x, Outsider past r f x ∧ r.idOf x = id)
  | .adopt f e target =>
    (r.adopt f e target).1 = true ∧
      ((∃ y g, (y = e ∨ r.Below e y ∧ r.lifecycle y = .alive) ∧ g ≠ f ∧ r.idOf y ∈ r.owners g) ∨
        ∃ x y, Outsider past r f x ∧ ¬ (x = e ∨ r.Below e x) ∧ (y = e ∨ r.Below e y) ∧
          r.idOf x = r.idOf y)
  | .release f e =>
    ∃ x, r.Below e x ∧ x ≠ e ∧ r.lifecycle x = .alive ∧ r.idOf x ∈ (r.release f e).owners f
  | .retire .. | .sameTree .. | .relocate .. => False

namespace Stage

variable {past : List (Registry × FactoryCall)} {r s : Registry} {a : Stage} {call : FactoryCall}
  {f g : FactoryRef} {e x : EntityRef}

/-- No factory ends or moves an entity that does not live in its tree, or changes anything when it
is asked to. -/
def Discerning (a : Stage) : Prop :=
  ∀ f e, a.registry.Exists (.ofEntity e) → ¬ Lives a.past f e →
    a.registry.retire f e = (false, a.registry) ∧
      ∀ target, a.registry.relocate f e target = (false, a.registry)

theorem retire_eq_false_iff :
    r.retire f e = (false, r) ↔ r.lifecycle e = .alive → r.idOf e ∉ r.owners f := by
  unfold Registry.retire
  change (if r.idOf e ∈ r.owners f ∧ r.lifecycle e = .alive then _ else _) = _ ↔ _
  split
  · rename_i hacts
    exact ⟨nofun, fun h => absurd hacts.1 (h hacts.2)⟩
  · rename_i hrefuses
    exact ⟨fun _ halive hrec => hrefuses ⟨hrec, halive⟩, fun _ => rfl⟩

theorem relocate_of_not_recorded (h : r.lifecycle e = .alive → r.idOf e ∉ r.owners f)
    (target : ContainerRef) : r.relocate f e target = (false, r) := by
  unfold Registry.relocate
  split
  · rename_i hmay
    obtain ⟨_, hrec, halive, -⟩ := mayRelocate_iff.1 hmay
    exact absurd (Table.mem_of_find? hrec) (h halive)
  · rfl

/-- Factories know their entities if no outsider has an identity that they have recorded. -/
theorem discerning_iff : Discerning ⟨past, r⟩ ↔
    ∀ {f x}, Outsider past r f x → r.idOf x ∉ r.owners f := by
  constructor
  · intro h f x hx
    exact retire_eq_false_iff.1 (h f x hx.found hx.outside).1 hx.alive
  · intro h f x hexists hout
    have hrefuses : r.lifecycle x = .alive → r.idOf x ∉ r.owners f :=
      fun halive => h ⟨hexists, halive, hout⟩
    exact ⟨retire_eq_false_iff.2 hrefuses, relocate_of_not_recorded hrefuses⟩

/-! ## What calls do -/

/-- A call that brings nothing and takes nothing leaves everybody where they live. -/
theorem lives_of_idle (hbrings : ∀ x, ¬ call.Brings r x) (htakes : ∀ g x, ¬ call.Takes r g x) :
    Lives ((r, call) :: past) g x ↔ Lives past g x :=
  ⟨fun h => (h.resolve_left fun hx => hbrings x hx.1).2.2,
    fun h => .inr ⟨hbrings x, htakes g x, h⟩⟩

theorem discerning_of_idle (hbrings : ∀ x, ¬ call.Brings r x) (htakes : ∀ g x, ¬ call.Takes r g x)
    (h : Discerning ⟨past, r⟩) : Discerning ⟨(r, call) :: past, r⟩ :=
  discerning_iff.2 fun hx => discerning_iff.1 h
    ⟨hx.found, hx.alive, fun hlives => hx.outside ((lives_of_idle hbrings htakes).2 hlives)⟩

theorem discerning_of_retired (k : r.Retired f e s) (he : r.Exists (.ofEntity e))
    (h : Discerning ⟨past, r⟩) : Discerning ⟨(r, .retire f e) :: past, s⟩ := by
  refine discerning_iff.2 fun {g x} hx hrec => ?_
  have hne : x ≠ e := by
    rintro rfl
    have hdead := k.lifecycle x
    rw [if_pos rfl, hx.alive] at hdead
    cases hdead
  have halive : r.lifecycle x = .alive := by
    rw [← hx.alive, k.lifecycle, if_neg hne]
  have hbefore : Outsider past r g x :=
    ⟨(k.exists_iff he _).1 hx.found, halive,
      fun hlives => hx.outside (.inr ⟨not_false, fun htaken => hne htaken.2, hlives⟩)⟩
  rw [k.idOf, k.owners] at hrec
  split at hrec
  · exact discerning_iff.1 h hbefore (Table.mem_erase.1 hrec).2
  · exact discerning_iff.1 h hbefore hrec

theorem discerning_of_relocated {target : ContainerRef}
    (hrelocate : r.relocate f e target = (true, s)) (h : Discerning ⟨past, r⟩) :
    Discerning ⟨(r, .relocate f e target) :: past, s⟩ := by
  have hmay : r.mayRelocate f e target = true := by
    rw [← fst_relocate, hrelocate]
  obtain ⟨_, hfound, -⟩ := mayRelocate_iff.1 hmay
  obtain rfl := relocate_eq_true hrelocate
  refine discerning_iff.2 fun {g x} hx hrec => ?_
  have hbefore : Outsider past r g x :=
    ⟨(r.exists_setOwners _ _ _).1 hx.found, hx.alive,
      fun hlives => hx.outside (.inr ⟨not_false, not_false, hlives⟩)⟩
  have hids : r.idOf x ∈ r.owners g := by
    change r.idOf x ∈ _ at hrec
    rw [owners_setOwners] at hrec
    split at hrec
    · rename_i hg
      rw [hg]
      rcases Table.mem_insert.1 hrec with heq | hmem
      · rw [heq]
        exact Table.mem_of_find? hfound
      · exact hmem
    · exact hrec
  exact discerning_iff.1 h hbefore hids

/-- A call has brought entities into the tree of its factory, and done nothing else. -/
structure BroughtIn (r : Registry) (call : FactoryCall) (s : Registry) : Prop where
  takes : ∀ g x, ¬ call.Takes r g x
  exists_iff : ∀ x, s.Exists (.ofEntity x) ↔ r.Exists (.ofEntity x) ∨ call.Brings r x
  lifecycle : ∀ {x}, ¬ call.Brings r x → s.lifecycle x = r.lifecycle x
  idOf : ∀ {x}, ¬ call.Brings r x → s.idOf x = r.idOf x
  mem_owners : ∀ {g id}, id ∈ s.owners g ↔
    id ∈ r.owners g ∨ g = call.callee ∧ ∃ y, call.Brings r y ∧ s.idOf y = id

/-- What has been brought in is taken for something else where its identity is recorded by another
factory, or belongs to an outsider. -/
theorem BroughtIn.discerning_iff (k : BroughtIn r call s) (h : Discerning ⟨past, r⟩) :
    Discerning ⟨(r, call) :: past, s⟩ ↔
      ¬ ((∃ y g, call.Brings r y ∧ s.lifecycle y = .alive ∧ g ≠ call.callee ∧
          s.idOf y ∈ r.owners g) ∨
        ∃ x y, Outsider past r call.callee x ∧ ¬ call.Brings r x ∧ call.Brings r y ∧
          r.idOf x = s.idOf y) := by
  rw [Stage.discerning_iff]
  constructor
  · rintro hafter (⟨y, g, hy, halive, hg, hid⟩ | ⟨x, y, hx, hnew, hy, hid⟩)
    · refine hafter (f := g) (x := y) ⟨(k.exists_iff y).2 (.inr hy), halive, ?_⟩
        (k.mem_owners.2 (.inl hid))
      rintro (⟨-, heq⟩ | ⟨hnot, -⟩)
      · exact hg heq
      · exact hnot hy
    · refine hafter (f := call.callee) (x := x) ⟨(k.exists_iff x).2 (.inl hx.found), ?_, ?_⟩ ?_
      · rw [k.lifecycle hnew]
        exact hx.alive
      · rintro (⟨hnew', -⟩ | ⟨-, -, hlives⟩)
        · exact hnew hnew'
        · exact hx.outside hlives
      · rw [k.idOf hnew]
        exact k.mem_owners.2 (.inr ⟨rfl, y, hy, hid.symm⟩)
  · intro hclear g x hx hrec
    by_cases hnew : call.Brings r x
    · have hg : g ≠ call.callee := fun hg => hx.outside (.inl ⟨hnew, hg⟩)
      rcases k.mem_owners.1 hrec with hrec | ⟨heq, -⟩
      · exact hclear (.inl ⟨x, g, hnew, hx.alive, hg, hrec⟩)
      · exact hg heq
    · have hbefore : Outsider past r g x := by
        refine ⟨((k.exists_iff x).1 hx.found).resolve_right hnew, ?_, fun hlives => ?_⟩
        · rw [← k.lifecycle hnew]
          exact hx.alive
        · exact hx.outside (.inr ⟨hnew, k.takes g x, hlives⟩)
      rw [k.idOf hnew] at hrec
      rcases k.mem_owners.1 hrec with hrec | ⟨rfl, y, hy, hid⟩
      · exact Stage.discerning_iff.1 h hbefore hrec
      · exact hclear (.inr ⟨x, y, hbefore, hnew, hy, hid.symm⟩)

theorem brings_mint_iff {owner : ContainerRef} {id : Uuid} (h : r.mint f owner id = .ok (e, s)) :
    (FactoryCall.mint f owner id).Brings r x ↔ x = e := by
  constructor
  · rintro ⟨t, ht⟩
    rw [h] at ht
    cases ht
    rfl
  · rintro rfl
    exact ⟨s, h⟩

theorem broughtIn_of_mint {owner : ContainerRef} {id : Uuid} (h : r.mint f owner id = .ok (e, s)) :
    BroughtIn r (.mint f owner id) s := by
  have k := minted_of_mint h
  exact {
    takes := fun _ _ => not_false
    exists_iff := fun x => by rw [k.exists_iff, brings_mint_iff h]
    lifecycle := fun hx => by rw [k.lifecycle, if_neg fun heq => hx ((brings_mint_iff h).2 heq)]
    idOf := fun hx => by rw [k.idOf, if_neg fun heq => hx ((brings_mint_iff h).2 heq)]
    mem_owners := fun {g j} => by
      simp only [brings_mint_iff h, exists_eq_left, k.idOf, if_true, k.owners]
      by_cases hg : g = f
      · rw [if_pos hg, Table.mem_insert, or_comm, eq_comm]
        exact or_congr_right (and_iff_right hg).symm
      · rw [if_neg hg]
        exact (or_iff_left fun hnew => hg hnew.1).symm }

theorem discerning_minted_iff {owner : ContainerRef} {id : Uuid}
    (hmint : r.mint f owner id = .ok (e, s)) (h : Discerning ⟨past, r⟩) :
    Discerning ⟨(r, .mint f owner id) :: past, s⟩ ↔
      ¬ ((∃ g, g ≠ f ∧ id ∈ r.owners g) ∨ ∃ x, Outsider past r f x ∧ r.idOf x = id) := by
  have k := minted_of_mint hmint
  have halive : s.lifecycle e = .alive := by
    rw [k.lifecycle, if_pos rfl]
  rw [(broughtIn_of_mint hmint).discerning_iff h]
  simp only [brings_mint_iff hmint, exists_and_left, exists_eq_left, k.idOf, if_true]
  refine not_congr (or_congr (and_iff_right halive) (exists_congr fun x => ?_))
  refine and_congr_right fun hx => and_iff_right ?_
  rintro rfl
  exact k.new hx.found

section Adopt

variable {target : ContainerRef}

theorem mem_owners_adopted {id : Uuid} (k : r.Adopted f e target s) :
    id ∈ s.owners f ↔ id ∈ r.owners f ∨ ∃ y, (y = e ∨ r.Below e y) ∧ r.idOf y = id := by
  rw [k.owners, if_pos rfl, Table.mem_foldl_insert (fun p : EntityRef × Uuid => r.idOf p.1),
    Table.mem_insert]
  constructor
  · rintro ((rfl | hmem) | ⟨⟨y, owner⟩, hy, hid⟩)
    · exact .inr ⟨e, .inl rfl, rfl⟩
    · exact .inl hmem
    · exact .inr ⟨y, .inr (exists_mem_descendants.1 ⟨owner, hy⟩), hid⟩
  · rintro (hmem | ⟨y, rfl | hbelow, hid⟩)
    · exact .inl (.inr hmem)
    · exact .inl (.inl hid.symm)
    · obtain ⟨owner, hy⟩ := exists_mem_descendants.2 hbelow
      exact .inr ⟨_, hy, hid⟩

theorem brings_adopt_iff (h : r.adopt f e target = (true, s)) :
    (FactoryCall.adopt f e target).Brings r x ↔ x = e ∨ r.Below e x :=
  and_iff_right (congrArg Prod.fst h)

variable (hadopt : r.adopt f e target = (true, s)) (he : r.Exists (.ofEntity e))
  (hbelow : ∀ {y}, r.Below e y → r.Exists (.ofEntity y))

include hadopt he hbelow

theorem broughtIn_of_adopt : BroughtIn r (.adopt f e target) s := by
  have k := adopted_of_adopt hadopt
  exact {
    takes := fun _ _ => not_false
    exists_iff := fun x => by
      rw [k.exists_iff he, brings_adopt_iff hadopt]
      refine (or_iff_left_of_imp ?_).symm
      rintro (rfl | hx)
      · exact he
      · exact hbelow hx
    lifecycle := fun hx => by
      rw [k.lifecycle, if_neg fun heq => hx ((brings_adopt_iff hadopt).2 (.inl heq))]
    idOf := fun _ => k.idOf _
    mem_owners := fun {g id} => by
      simp only [brings_adopt_iff hadopt, k.idOf]
      by_cases hg : g = f
      · subst hg
        rw [mem_owners_adopted k]
        exact or_congr_right (and_iff_right rfl).symm
      · rw [k.owners, if_neg hg]
        exact (or_iff_left fun hnew => hg hnew.1).symm }

theorem discerning_adopted_iff (h : Discerning ⟨past, r⟩) :
    Discerning ⟨(r, .adopt f e target) :: past, s⟩ ↔
      ¬ ((∃ y g, (y = e ∨ r.Below e y ∧ r.lifecycle y = .alive) ∧ g ≠ f ∧ r.idOf y ∈ r.owners g) ∨
        ∃ x y, Outsider past r f x ∧ ¬ (x = e ∨ r.Below e x) ∧ (y = e ∨ r.Below e y) ∧
          r.idOf x = r.idOf y) := by
  have k := adopted_of_adopt hadopt
  have halive : ∀ y, (y = e ∨ r.Below e y) ∧ s.lifecycle y = .alive ↔
      y = e ∨ r.Below e y ∧ r.lifecycle y = .alive := by
    intro y
    rw [k.lifecycle]
    split
    · rename_i hy
      simp only [hy, true_or, and_true]
    · rename_i hy
      simp only [hy, false_or]
  rw [(broughtIn_of_adopt hadopt he hbelow).discerning_iff h]
  simp only [brings_adopt_iff hadopt, k.idOf, ← and_assoc, halive]
  exact Iff.rfl

end Adopt

/-- A released subtree is still taken for the factory's own where a record is left behind. -/
theorem discerning_released_iff (he : r.Exists (.ofEntity e))
    (hbelow : ∀ {y}, r.Below e y → r.Exists (.ofEntity y)) (h : Discerning ⟨past, r⟩) :
    Discerning ⟨(r, .release f e) :: past, r.release f e⟩ ↔
      ¬ ∃ x, r.Below e x ∧ x ≠ e ∧ r.lifecycle x = .alive ∧
        r.idOf x ∈ (r.release f e).owners f := by
  have k := released_release r f e
  have hout : (r.release f e).lifecycle e ≠ .alive := by
    by_cases halive : r.lifecycle e = .alive
    · rw [k.lifecycle_of_alive halive]
      nofun
    · rw [k.lifecycle_of_not_alive halive]
      exact halive
  rw [discerning_iff]
  constructor
  · rintro hafter ⟨x, hx, hne, halive, hrec⟩
    refine hafter (f := f) (x := x) ⟨(k.exists_iff he _).2 (hbelow hx), ?_, ?_⟩ ?_
    · rw [k.lifecycle_other x hne]
      exact halive
    · rintro (⟨hnew, -⟩ | ⟨-, hstays, -⟩)
      · exact hnew
      · exact hstays (.inr ⟨rfl, hx⟩)
    · rw [k.idOf]
      exact hrec
  · intro hclear g x hx hrec
    have hne : x ≠ e := by
      rintro rfl
      exact hout hx.alive
    have halive : r.lifecycle x = .alive := by
      rw [← k.lifecycle_other x hne]
      exact hx.alive
    rw [k.idOf] at hrec
    by_cases hleaves : g = f ∧ r.Below e x
    · obtain ⟨rfl, hlower⟩ := hleaves
      exact hclear ⟨x, hlower, hne, halive, hrec⟩
    · have hbefore : Outsider past r g x := by
        refine ⟨(k.exists_iff he _).1 hx.found, halive, fun hlives => hx.outside ?_⟩
        exact .inr ⟨not_false, not_or.2 ⟨hne, hleaves⟩, hlives⟩
      obtain ⟨owner, hrec⟩ := Table.mem_iff_find?.1 hrec
      exact discerning_iff.1 h hbefore (Table.mem_of_find? (k.record_mono hrec))

/-- A call ends the agreement between factories and trees exactly where it confuses one of them. -/
theorem discerning_after_iff (hlead : start.Leads a) (valid : call.Valid a.registry)
    (h : a.Discerning) : (a.after call).Discerning ↔ ¬ call.Confuses a.past a.registry := by
  have hbelow : ∀ {e y}, a.registry.Below e y → a.registry.Exists (.ofEntity y) := by
    intro e y hy
    obtain ⟨d, j, -, hheld⟩ := below_iff_held.1 hy
    exact exists_of_held hlead hheld
  cases call with
  | mint f owner id =>
    rw [after, FactoryCall.perform]
    cases hmint : a.registry.mint f owner id with
    | ok made =>
      rw [discerning_minted_iff hmint h]
      exact not_congr (and_iff_right ⟨_, _, hmint⟩).symm
    | error refusal =>
      have hidle : Discerning ⟨(a.registry, .mint f owner id) :: a.past, a.registry⟩ := by
        refine discerning_of_idle (fun x hx => ?_) (fun _ _ => not_false) h
        obtain ⟨s, hs⟩ := hx
        rw [hmint] at hs
        cases hs
      refine iff_of_true hidle fun hconfuses => ?_
      obtain ⟨⟨_, _, hmade⟩, -⟩ := hconfuses
      rw [hmint] at hmade
      cases hmade
  | retire f e =>
    refine iff_of_true ?_ not_false
    rcases a.registry.retire_cases f e with ⟨s, hretire⟩ | hrefused
    · rw [after, FactoryCall.perform, hretire]
      exact discerning_of_retired (retired_of_retire hretire) valid h
    · rw [after, FactoryCall.perform, hrefused]
      refine discerning_of_idle (fun _ => id) (fun _ _ htaken => ?_) h
      rw [FactoryCall.Takes, hrefused] at htaken
      exact Bool.false_ne_true htaken.1
  | sameTree f c d =>
    exact iff_of_true (discerning_of_idle (fun _ => id) (fun _ _ => id) h) not_false
  | relocate f e target =>
    refine iff_of_true ?_ not_false
    rcases a.registry.relocate_cases f e target with ⟨s, hrelocate⟩ | hrefused
    · rw [after, FactoryCall.perform, hrelocate]
      exact discerning_of_relocated hrelocate h
    · rw [after, FactoryCall.perform, hrefused]
      exact discerning_of_idle (fun _ => id) (fun _ _ => id) h
  | adopt f e target =>
    rcases a.registry.adopt_cases f e target with ⟨s, hadopt⟩ | hrefused
    · rw [after, FactoryCall.perform, hadopt, discerning_adopted_iff hadopt valid hbelow h]
      exact not_congr (and_iff_right (congrArg Prod.fst hadopt)).symm
    · have hfalse : (a.registry.adopt f e target).1 ≠ true := by
        rw [hrefused]
        exact Bool.false_ne_true
      refine iff_of_true ?_ fun hconfuses => hfalse hconfuses.1
      rw [after, FactoryCall.perform, hrefused]
      exact discerning_of_idle (fun _ hx => hfalse hx.1) (fun _ _ => id) h
  | release f e => exact discerning_released_iff valid hbelow h

/-- Steps that are no calls leave the agreement as it is. -/
theorem discerning_aside (step : a.registry.Aside s) (h : a.Discerning) :
    Discerning ⟨a.past, s⟩ := by
  refine discerning_iff.2 fun {f x} hx hrec => ?_
  rw [step.idOf, step.owners] at hrec
  refine discerning_iff.1 h ⟨(step.exists_iff x).1 hx.found, ?_, hx.outside⟩ hrec
  rw [← step.lifecycle]
  exact hx.alive

theorem discerning_founded (config : TreeConfig) (h : a.Discerning) :
    Discerning ⟨a.past, (a.registry.newFactory config).2⟩ := by
  refine discerning_iff.2 fun {f x} hx hrec => ?_
  rw [(extends_newFactory a.registry config).owners] at hrec
  exact discerning_iff.1 h ⟨hx.found, hx.alive, hx.outside⟩ hrec

theorem discerning_start : start.Discerning :=
  discerning_iff.2 fun _ hrec => Table.not_mem_empty _ hrec

/-! ## Whole histories -/

/-- Each of some calls had a property, given the calls before it and the registry it was made in. -/
def Throughout (P : List (Registry × FactoryCall) → Registry → FactoryCall → Prop)
    (past : List (Registry × FactoryCall)) : Prop :=
  ∀ r call earlier, (r, call) :: earlier <:+ past → P earlier r call

section Throughout

variable {P : List (Registry × FactoryCall) → Registry → FactoryCall → Prop}

theorem throughout_nil : Throughout P [] := fun _ _ _ hsuffix =>
  absurd (List.suffix_nil.1 hsuffix) (List.cons_ne_nil _ _)

theorem throughout_cons : Throughout P ((r, call) :: past) ↔ P past r call ∧ Throughout P past := by
  constructor
  · intro h
    exact ⟨h _ _ _ (List.suffix_refl _),
      fun _ _ _ hsuffix => h _ _ _ (hsuffix.trans (List.suffix_cons _ _))⟩
  · rintro ⟨hlast, hbefore⟩ s c earlier hsuffix
    rcases List.suffix_cons_iff.1 hsuffix with heq | hsuffix
    · cases heq
      exact hlast
    · exact hbefore _ _ _ hsuffix

end Throughout

/-- After each of some calls, every factory knew its entities. -/
def AlwaysDiscerning : List (Registry × FactoryCall) → Prop :=
  Throughout fun earlier r call => Discerning ⟨(r, call) :: earlier, call.perform r⟩

/-- None of some calls confused a factory. -/
def NeverConfused : List (Registry × FactoryCall) → Prop :=
  Throughout fun earlier r call => ¬ call.Confuses earlier r

theorem neverConfused_cons : NeverConfused ((r, call) :: past) ↔
    ¬ call.Confuses past r ∧ NeverConfused past := throughout_cons

/-- Factories know their entities up to the first call that confuses one of them. -/
theorem alwaysDiscerning_iff (hlead : start.Leads a) :
    AlwaysDiscerning a.past ∧ a.Discerning ↔ NeverConfused a.past := by
  -- Nothing but a call ends the agreement, so what was true after the last one still is.
  suffices h : (AlwaysDiscerning a.past → a.Discerning) ∧
      (AlwaysDiscerning a.past ↔ NeverConfused a.past) by
    rw [and_iff_left_of_imp h.1, h.2]
  induction hlead with
  | refl => exact ⟨fun _ => discerning_start, iff_of_true throughout_nil throughout_nil⟩
  | @tail a _ hlead step ih =>
    obtain ⟨hnow, hcalls⟩ := ih
    cases step with
    | founded config => exact ⟨fun h => discerning_founded config (hnow h), hcalls⟩
    | aside step => exact ⟨fun h => discerning_aside step (hnow h), hcalls⟩
    | call call valid =>
      have hlast : AlwaysDiscerning a.past →
          ((a.after call).Discerning ↔ ¬ call.Confuses a.past a.registry) :=
        fun h => discerning_after_iff hlead valid (hnow h)
      refine ⟨fun h => (throughout_cons.1 h).1, ?_⟩
      calc AlwaysDiscerning (a.after call).past
        _ ↔ (a.after call).Discerning ∧ AlwaysDiscerning a.past := throughout_cons
        _ ↔ ¬ call.Confuses a.past a.registry ∧ AlwaysDiscerning a.past := and_congr_left hlast
        _ ↔ ¬ call.Confuses a.past a.registry ∧ NeverConfused a.past :=
          and_congr_right fun _ => hcalls
        _ ↔ NeverConfused (a.after call).past := neverConfused_cons.symm

end Stage

/-! ## Runs -/

section Run

variable {χ : Type} {diary : χ → List Registry}

/-- Every run has a history, and in each of its histories factories act on their own entities only,
at all times up to then, exactly where no call has confused one of them. -/
theorem discerning_iff_never_confused {client : χ} {w : World χ} (blank : diary client = [])
    (steps : ReflTransGen (Acting diary (Observers.Unruly diary)) ⟨.empty, client⟩ w) :
    w.Told diary ∧ ∀ {pages now}, w.ToldBy diary pages now → ∀ a ∈ pages ++ [now],
      (Stage.AlwaysDiscerning a.past ∧ a.Discerning ↔ Stage.NeverConfused a.past) := by
  refine ⟨told_of_run blank steps, fun h a ha => ?_⟩
  exact Stage.alwaysDiscerning_iff ((List.pairwise_cons.1 h.inOrder).1 a ha)

end Run

end

open scoped PlainType

/-! ### Two trees -/

/-- Two trees with a container each. -/
def parted : World (List Registry) :=
  enact .noting .nothing
    [.newFactory ⟨none, 0⟩, .newFactory ⟨none, 0⟩, .newContainer (.ofNat 100) ⟨0⟩,
      .newContainer (.ofNat 200) ⟨1⟩]
    ⟨.empty, []⟩

theorem told_parted : parted.ToldBy id [] ⟨[], parted.registry⟩ where
  registry := rfl
  noted := rfl
  inOrder := by
    have hopened : ∀ (r : Registry) (id : Uuid) (f : FactoryRef), r.Aside (r.newContainer id f).2 :=
      fun r _ _ => aside_open r rfl
    have hfounded : Stage.start.Leads
        ⟨[], ((Registry.empty.newFactory ⟨none, 0⟩).2.newFactory ⟨none, 0⟩).2⟩ :=
      .tail (.single (.founded _)) (.founded _)
    exact List.pairwise_pair.2 ((hfounded.tail_aside (hopened _ (.ofNat 100) ⟨0⟩)).tail_aside
      (hopened _ (.ofNat 200) ⟨1⟩))

theorem actings_parted (calls : List FactoryCall) :
    ReflTransGen (Acting id (Observers.Unruly id)) ⟨.empty, []⟩ (parted.ring calls) :=
  (actings_enact Observers.noting_reactive.unruly .nothing _ _).trans (actings_ring calls _)

/-- Where both trees have an entity of their own, its factory ends it and the other one does not. -/
theorem discerning_iff_never_confused_parted :
    let w := parted.ring
      [.mint ⟨0⟩ (.standalone 0) (.ofNat 1), .mint ⟨1⟩ (.standalone 1) (.ofNat 2)]
    (w.Told id ∧ ∀ {pages now}, w.ToldBy id pages now → ∀ a ∈ pages ++ [now],
      (Stage.AlwaysDiscerning a.past ∧ a.Discerning ↔ Stage.NeverConfused a.past)) ∧
    (w.registry.retire ⟨0⟩ ⟨1⟩).1 = false ∧ (w.registry.retire ⟨1⟩ ⟨1⟩).1 = true := by
  have blank : id ([] : List Registry) = [] := rfl
  exact ⟨discerning_iff_never_confused blank (actings_parted _), by decide +kernel,
    by decide +kernel⟩

/-- Where two entities have one identity, either factory would end both of them. -/
theorem not_discerning_namesakes :
    ¬ ∀ w : World (List Registry),
      ReflTransGen (Acting id (Observers.Unruly id)) ⟨.empty, []⟩ w →
      ∀ pages now, w.ToldBy id pages now → now.Discerning := by
  intro hall
  let calls : List FactoryCall :=
    [.mint ⟨0⟩ (.standalone 0) (.ofNat 1), .mint ⟨1⟩ (.standalone 1) (.ofNat 1)]
  have hdiscerning := hall _ (actings_parted calls) [] _ (told_parted.ring calls)
  have houtside : ¬ Lives (Stage.ring calls ⟨[], parted.registry⟩).past ⟨0⟩ ⟨1⟩ := by
    rintro (⟨-, hsame⟩ | ⟨hnot, -⟩)
    · cases hsame
    · exact hnot ⟨_, rfl⟩
  have hrefused := (hdiscerning ⟨0⟩ ⟨1⟩ (by decide +kernel) houtside).1
  have hretired :
      ((Stage.ring calls ⟨[], parted.registry⟩).registry.retire ⟨0⟩ ⟨1⟩).1 = true := by
    decide +kernel
  rw [hrefused] at hretired
  exact Bool.false_ne_true hretired

end EntityForest
