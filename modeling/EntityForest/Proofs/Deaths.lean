import EntityForest.Attribute.Plain
import EntityForest.Proofs.Cascade

/-! # Deaths

A kill first takes its victims from their container and announces their deaths there, where a
failure counts. Then it goes down from the victims, where none does. No failure cuts it short: what
it takes and whom it tells is found part by part. -/

namespace EntityForest

open Registry World

section

variable [ValueTypes] {χ : Type} {obs : Observers χ} {log : χ → List Notice}

namespace World

/-! ## The victims themselves -/

/-- Some entities of one container have died, and the container has announced their deaths as far as
its delegate was there. -/
structure Felled (obs : Observers χ) (log : χ → List Notice) (c : ContainerRef)
    (victims : List EntityRef) (w : World χ) (answer : Except ContainerError Unit) (w' : World χ) :
    Prop where
  razed : w.registry.Razed (· ∈ victims) (fun _ => False) w'.registry
  told : ∃ notices, w.registry.Announced obs (victims.map (Death.mk c)) notices answer ∧
    log w'.client = log w.client ++ notices

theorem Felled.append {c : ContainerRef} {victims more : List EntityRef} {w w' w'' : World χ}
    {answer last : Except ContainerError Unit} (h : Felled obs log c victims w answer w')
    (k : Felled obs log c more w' last w'') :
    Felled obs log c (victims ++ more) w (answer.bind fun _ => last) w'' where
  razed := (h.razed.trans k.razed).congr (fun _ => List.mem_append.symm) fun _ => or_self_iff
  told := by
    obtain ⟨notices, hannounced, hlog⟩ := h.told
    obtain ⟨later, hlater, hlog'⟩ := k.told
    rw [List.map_append]
    refine ⟨notices ++ later, ?_, ?_⟩
    · exact hannounced.append (hlater.congr h.razed.names h.razed.audience)
    · rw [hlog', hlog, List.append_assoc]

section Kill

variable (hobs : obs.Steady) (hlog : obs.Logs log)

include hobs hlog

theorem felled_killHeld (holds : Holds) {c : ContainerRef} {id : Uuid} {e : EntityRef} {w : World χ}
    (hr : w.registry.Settled) (he : w.registry.Held c id e) :
    (killHeld obs holds c id w).1.1 = some e ∧ Felled obs log c [e] w
      (killHeld obs holds c id w).1.2 (killHeld obs holds c id w).2 := by
  obtain ⟨s, hkill⟩ := hr.exists_kill he
  have hrazed := (killed_of_kill hkill).razed hr.sound
  obtain ⟨notices, hannounced, hlogged, hsame⟩ :=
    announced_announceKilled hobs hlog (holds.keepEntities [e]) c e { w with registry := s }
  unfold killHeld
  rw [hkill]
  refine ⟨rfl, ⟨?_, notices, hannounced.congr hrazed.names hrazed.audience, hlogged⟩⟩
  change w.registry.Razed _ _
    (announceKilled obs (holds.keepEntities [e]) c e { w with registry := s }).2.registry
  rw [hsame]
  exact hrazed.congr (fun _ => List.mem_singleton.symm) fun _ => Iff.rfl

/-- One death after another, whether or not a listener fails. -/
theorem felled_killEach (holds : Holds) {c : ContainerRef} {victims : List EntityRef} {w : World χ}
    (hr : w.registry.Settled) (h : w.registry.Siblings c victims) :
    (killEach obs c holds (victims.map w.registry.idOf) w).1.1 = victims ∧
      Felled obs log c victims w (killEach obs c holds (victims.map w.registry.idOf) w).1.2
        (killEach obs c holds (victims.map w.registry.idOf) w).2 := by
  induction victims generalizing holds w with
  | nil => exact ⟨rfl, (Razed.refl _).congr (by simp) (by simp), [], .nil, (List.append_nil _).symm⟩
  | cons e victims ih =>
    obtain ⟨id, he⟩ := h.held List.mem_cons_self
    obtain ⟨hvictim, hfelled⟩ := felled_killHeld hobs hlog holds hr he
    rw [List.map_cons, hr.sound.keyed he, killEach]
    generalize killHeld obs holds c id w = killed at hvictim hfelled
    obtain ⟨⟨victim, outcome⟩, w'⟩ := killed
    change victim = some e at hvictim
    subst hvictim
    change Felled obs log c [e] w outcome w' at hfelled
    have hids : w.registry.idOf = w'.registry.idOf := (funext hfelled.razed.names.idOf).symm
    have hrest : w'.registry.Siblings c victims := by
      obtain ⟨hnot, hnodup⟩ := List.nodup_cons.1 h.nodup
      refine ⟨fun {x} hx => ?_, hnodup⟩
      obtain ⟨j, hheld⟩ := h.held (List.mem_cons_of_mem e hx)
      refine ⟨j, hfelled.razed.held_iff.2 ⟨hheld, fun hmem => hnot ?_⟩⟩
      rw [← List.mem_singleton.1 hmem]
      exact hx
    obtain ⟨hvictims, hmore⟩ :=
      ih (holds.keepEntities [e]) (hfelled.razed.settled hr) hrest
    rw [hids]
    exact ⟨congrArg (e :: ·) hvictims, hfelled.append hmore⟩

end Kill

/-! ## What is below them -/

/-- A part of a cascade: entities have died and child containers have been closed, and the listeners
of the containers that had held the dead have been told of each death, from the top down. -/
structure Swept (log : χ → List Notice) (gone shut : EntityRef → Prop) (w w' : World χ) : Prop where
  razed : w.registry.Razed gone shut w'.registry
  told : ∃ deaths notices, w.registry.Roll gone deaths ∧ w.registry.Tolled deaths notices ∧
    log w'.client = log w.client ++ notices

namespace Swept

variable {gone shut gone' shut' : EntityRef → Prop} {w w' w'' : World χ}

theorem refl (w : World χ) : Swept log (fun _ => False) (fun _ => False) w w :=
  ⟨.refl _, [], [], .nil _, .nil, (List.append_nil _).symm⟩

theorem close (e : EntityRef) (w : World χ) : Swept log (fun _ => False) (· = e) w
    { w with registry := w.registry.close (.ofEntity e) } :=
  ⟨razed_close _ e, [], [], .nil _, .nil, (List.append_nil _).symm⟩

theorem congr (h : Swept log gone shut w w') (hgone : ∀ x, gone x ↔ gone' x)
    (hshut : ∀ x, shut x ↔ shut' x) : Swept log gone' shut' w w' := by
  obtain rfl : gone = gone' := funext fun x => propext (hgone x)
  obtain rfl : shut = shut' := funext fun x => propext (hshut x)
  exact h

theorem trans (h : Swept log gone shut w w') (k : Swept log gone' shut' w' w'')
    (horder : ∀ x y, gone x → gone' y → ¬ w.registry.Below y x) :
    Swept log (fun x => gone x ∨ gone' x) (fun x => shut x ∨ shut' x) w w'' where
  razed := h.razed.trans k.razed
  told := by
    obtain ⟨deaths, notices, hroll, htolled, hlog⟩ := h.told
    obtain ⟨more, later, hroll', htolled', hlog'⟩ := k.told
    refine ⟨deaths ++ more, notices ++ later, hroll.append h.razed hroll' horder, ?_, ?_⟩
    · exact htolled.append (htolled'.congr h.razed.names.delegateOf h.razed.audience)
    · rw [hlog', hlog, List.append_assoc]

end Swept

/-- A way of taking everything below a dead entity that is ready for it. Whether it is does not
depend on what is done elsewhere. -/
structure Sweeps (log : χ → List Notice) (f : Holds → EntityRef → World χ → World χ)
    (Ready : Registry → EntityRef → Prop) : Prop where
  swept : ∀ holds e w, w.registry.Settled → Ready w.registry e →
    Swept log (w.registry.Below e) (fun x => x = e ∨ w.registry.Below e x) w (f holds e w)
  kept : ∀ {r s gone shut e}, r.Razed gone shut s → Ready r e → Ready s e

/-- Everything below several dead entities is taken below one after another. -/
theorem swept_eachOfDead {f : Holds → EntityRef → World χ → World χ}
    {Ready : Registry → EntityRef → Prop} (hf : Sweeps log f Ready) (holds : Holds)
    {dead : List EntityRef} {w : World χ} (hr : w.registry.Settled)
    (hnodup : dead.Nodup) (hunheld : ∀ e ∈ dead, ∀ c id, ¬ w.registry.Held c id e)
    (hready : ∀ e ∈ dead, Ready w.registry e) :
    Swept log (fun x => ∃ v ∈ dead, w.registry.Below v x) (w.registry.Doomed dead) w
      (eachOfDead holds f dead w) := by
  -- each entity is swept before the next one, which nothing holds either
  induction dead generalizing w with
  | nil => exact (Swept.refl w).congr (by simp) (by simp [Doomed])
  | cons e dead ih =>
    rw [eachOfDead]
    have hfirst := hf.swept (holds.keepEntities (e :: dead)) e w hr (hready e List.mem_cons_self)
    generalize f (holds.keepEntities (e :: dead)) e w = w' at hfirst
    obtain ⟨hnot, hnodup⟩ := List.nodup_cons.1 hnodup
    have hrest := ih (hfirst.razed.settled hr) hnodup
      (fun v hv c id hheld => hunheld v (List.mem_cons_of_mem e hv) c id
        (hfirst.razed.held_mono hheld))
      (fun v hv => hf.kept hfirst.razed (hready v (List.mem_cons_of_mem e hv)))
    -- nothing is below two entities that nothing holds
    have happart : ∀ v ∈ dead, ∀ x, w.registry.Below v x → ¬ w.registry.Below e x := by
      intro v hv x hx hx'
      have heq := hr.sound.eq_of_below (hunheld v (List.mem_cons_of_mem e hv))
        (hunheld e List.mem_cons_self) hx hx'
      exact hnot (heq ▸ hv)
    have hbelow : ∀ v ∈ dead, ∀ x, w'.registry.Below v x ↔ w.registry.Below v x :=
      fun v hv x => hfirst.razed.below_iff (happart v hv)
    have hboth := hfirst.trans hrest (by
      intro x y hx hy hyx
      obtain ⟨v, hv, hy⟩ := hy
      exact happart v hv x (Below.trans ((hbelow v hv y).1 hy) hyx) hx)
    have hmore : ∀ x, (∃ v ∈ dead, w'.registry.Below v x) ↔ ∃ v ∈ dead, w.registry.Below v x :=
      fun x => exists_congr fun v => and_congr_right fun hv => hbelow v hv x
    refine hboth.congr (fun x => ?_) fun x => ?_
    · rw [hmore, List.exists_mem_cons_iff]
    · rw [Doomed, hmore, Doomed, List.exists_mem_cons_iff, List.mem_cons]
      tauto

end World

/-- The levels below an entity that hold something are fewer than `depth`. -/
def Registry.Shallow (r : Registry) (depth : Nat) (e : EntityRef) : Prop :=
  ∀ k q x, r.Down k e q → r.Parent q x → k < depth

theorem Registry.Razed.shallow {r s : Registry} {gone shut : EntityRef → Prop}
    (h : r.Razed gone shut s) {depth : Nat} {e : EntityRef} (he : r.Shallow depth e) :
    s.Shallow depth e := by
  intro k q x hdown hparent
  obtain ⟨id, hheld⟩ := hparent
  exact he k q x (h.down_mono hdown) ⟨id, h.held_mono hheld⟩

namespace World

/-- Entities of one container have died with everything below them. -/
structure Slain (obs : Observers χ) (log : χ → List Notice) (c : ContainerRef)
    (victims : List EntityRef) (w : World χ) (answer : Except ContainerError Unit) (w' : World χ) :
    Prop where
  razed : w.registry.Razed (w.registry.Doomed victims) (w.registry.Doomed victims) w'.registry
  told : ∃ now later after, log w'.client = log w.client ++ now ++ after ∧
    w.registry.Announced obs (victims.map (Death.mk c)) now answer ∧ w.registry.Tolled later after ∧
    w.registry.Roll (w.registry.Doomed victims) (victims.map (Death.mk c) ++ later)

/-- With what is done below each of the victims, their end is complete. -/
theorem Felled.slain {c : ContainerRef} {victims : List EntityRef} {w w' w'' : World χ}
    {answer : Except ContainerError Unit} (h : Felled obs log c victims w answer w')
    (hr : w.registry.Sound) (hsiblings : w.registry.Siblings c victims)
    (k : Swept log (fun x => ∃ v ∈ victims, w'.registry.Below v x) (w'.registry.Doomed victims)
      w' w'') : Slain obs log c victims w answer w'' where
  razed := by
    refine (h.razed.trans k.razed).congr (fun x => ?_) fun x => ?_
    · exact hsiblings.doomed_iff_of_razed hr h.razed
    · rw [false_or]
      exact hsiblings.doomed_iff_of_razed hr h.razed
  told := by
    obtain ⟨now, hannounced, hlog⟩ := h.told
    obtain ⟨later, after, hroll, htolled, hlog'⟩ := k.told
    refine ⟨now, later, after, ?_, hannounced, ?_, hsiblings.roll_append hr h.razed hroll⟩
    · rw [hlog', hlog]
    · exact htolled.congr h.razed.names.delegateOf h.razed.audience

/-- Where the container can say where it is, every one of these deaths is told. -/
theorem Slain.swept {c : ContainerRef} {victims : List EntityRef} {w w' : World χ}
    {answer : Except ContainerError Unit} (h : Slain obs log c victims w answer w')
    (hvoiced : obs.Voiced w.registry c) :
    Swept log (w.registry.Doomed victims) (w.registry.Doomed victims) w w' where
  razed := h.razed
  told := by
    obtain ⟨now, later, after, hlog, hannounced, htolled, hroll⟩ := h.told
    have hthere : ∀ p ∈ victims.map (Death.mk c), obs.Voiced w.registry p.container := by
      intro p hp
      obtain ⟨x, -, rfl⟩ := List.mem_map.1 hp
      exact hvoiced
    refine ⟨_, now ++ after, hroll, (hannounced.tolled hthere).1.append htolled, ?_⟩
    rw [hlog, List.append_assoc]

section Cascade

variable (hobs : obs.Steady) (hlog : obs.Logs log)

include hobs hlog

/-- The victims die one after another, and then what is below them. -/
theorem slain_killEach {f : Holds → EntityRef → World χ → World χ}
    {Ready : Registry → EntityRef → Prop} (hf : Sweeps log f Ready) (inner holds : Holds)
    {c : ContainerRef} {victims : List EntityRef} {w : World χ} (hr : w.registry.Settled)
    (hsiblings : w.registry.Siblings c victims) (hready : ∀ e ∈ victims, Ready w.registry e) :
    Slain obs log c victims w (killEach obs c inner (victims.map w.registry.idOf) w).1.2
      (eachOfDead holds f (killEach obs c inner (victims.map w.registry.idOf) w).1.1
        (killEach obs c inner (victims.map w.registry.idOf) w).2) := by
  obtain ⟨hvictims, hfelled⟩ := felled_killEach hobs hlog inner hr hsiblings
  rw [hvictims]
  apply hfelled.slain hr.sound hsiblings
  apply swept_eachOfDead hf holds (hfelled.razed.settled hr) hsiblings.nodup
  · intro e he d id hheld
    exact (hfelled.razed.held_iff.1 hheld).2 he
  · intro e he
    exact hf.kept hfelled.razed (hready e he)

/-- Below an entity that is dead already, a cascade takes everything. -/
theorem swept_shutDown (depth : Nat) (holds : Holds) {e : EntityRef} {w : World χ}
    (hr : w.registry.Settled) (hself : w.registry.delegateOf (.ofEntity e) = .ofEntity e)
    (hdepth : w.registry.Shallow depth e) :
    Swept log (w.registry.Below e) (fun x => x = e ∨ w.registry.Below e x) w
      (shutDown obs depth holds e w) := by
  -- the entities in the child container are dead when the levels below them are counted
  induction depth generalizing holds e w with
  | zero =>
    have hnone : ∀ x, ¬ w.registry.Below e x := by
      intro x hx
      induction hx with
      | child hparent => exact Nat.not_lt_zero 0 (hdepth 0 e _ rfl hparent)
      | step _ _ ih => exact ih
    exact (Swept.close e w).congr (fun x => (iff_false_intro (hnone x)).symm)
      fun x => (or_iff_left (hnone x)).symm
  | succ depth ih =>
    have hclosed : Swept log _ _ w { w with registry := w.registry.close (.ofEntity e) } :=
      Swept.close e w
    set v : World χ := { w with registry := w.registry.close (.ofEntity e) } with hv
    have hbelow : ∀ x, v.registry.Below e x ↔ w.registry.Below e x :=
      fun x => hclosed.razed.below_iff fun _ _ => not_false
    have hrv := hclosed.razed.settled hr
    have hshallow := hclosed.razed.shallow hdepth
    have hsweeps : Sweeps log (shutDown obs depth) fun r x =>
        r.delegateOf (.ofEntity x) = .ofEntity x ∧ r.Shallow depth x :=
      ⟨fun holds _ _ hr hx => ih holds hr hx.1 hx.2,
        fun hrazed hx => ⟨by rw [hrazed.names.delegateOf, hx.1], hrazed.shallow hx.2⟩⟩
    obtain ⟨victims, hvictims, hsiblings, hmem⟩ :=
      hrv.sound.exists_siblings (heldInOrder_perm obs (.ofEntity e) v)
    have hready : ∀ x ∈ victims,
        v.registry.delegateOf (.ofEntity x) = .ofEntity x ∧ v.registry.Shallow depth x := by
      intro x hx
      obtain ⟨id, hheld⟩ := hsiblings.held hx
      refine ⟨hrv.delegateOf hheld, fun k q y hdown hparent => ?_⟩
      exact Nat.lt_of_succ_lt_succ (hshallow (k + 1) q y ⟨x, ⟨id, hheld⟩, hdown⟩ hparent)
    have hvoiced : obs.Voiced v.registry (.ofEntity e) :=
      .inl ((hclosed.razed.names.delegateOf _).trans hself)
    have hrest := (slain_killEach hobs hlog hsweeps ((holds.gate (.ofEntity e)).lock (.ofEntity e))
      holds hrv hsiblings hready).swept hvoiced
    rw [hvictims] at hrest
    refine (hclosed.trans hrest fun _ _ h => h.elim).congr (fun x => ?_) fun x => ?_
    · rw [false_or, doomed_children_iff hmem, hbelow]
    · rw [doomed_children_iff hmem, hbelow]

theorem sweeps_shutDown : Sweeps log (fun holds e w => shutDown obs (depth obs w) holds e w)
    fun r x => r.delegateOf (.ofEntity x) = .ofEntity x where
  swept holds e w hr hself := by
    refine swept_shutDown hobs hlog _ holds hr hself fun k q x hdown hparent => ?_
    have hlevels := hr.sound.down_lt_size hdown hparent
    unfold depth
    omega
  kept hrazed hself := by rw [hrazed.names.delegateOf, hself]

/-- A call that kills the listed entities of a container kills everything below them as well. -/
theorem slain_killListed (holds : Holds) {c : ContainerRef} {victims : List EntityRef} {w : World χ}
    (hr : w.registry.Settled) (hsiblings : w.registry.Siblings c victims) :
    Slain obs log c victims w (killListed obs holds c (victims.map w.registry.idOf) w).1
      (killListed obs holds c (victims.map w.registry.idOf) w).2 :=
  slain_killEach hobs hlog (sweeps_shutDown hobs hlog) (holds.lock c) (holds.keep [c]) hr hsiblings
    fun _ he => (hsiblings.held he).elim fun _ hheld => hr.delegateOf hheld

end Cascade

end World

/-! ## The contract -/

/-- What a call does that kills some entities of one container. They and all that is below them are
dead, their child containers are empty and closed, and their records are gone; nothing else has
changed. Each of their deaths is told to the listeners of the container that held the entity, and
none before that of an entity further up. The answer is the first failure in the container itself.
But if the container names another one that is gone, nobody is told there, and that is the
answer. -/
structure KillSpec (obs : Observers χ) (c : ContainerRef) (victims : List EntityRef)
    (w : World (χ × List Notice))
    (outcome : Except ContainerError Bool × World (χ × List Notice)) : Prop where
  razed : w.registry.Razed (w.registry.Doomed victims) (w.registry.Doomed victims)
    outcome.2.registry
  emptied : ∀ {x}, w.registry.Doomed victims x → outcome.2.registry.held (.ofEntity x) = ∅
  told : ∃ now later after, outcome.2.client.2 = w.client.2 ++ now ++ after ∧
    w.registry.Roll (w.registry.Doomed victims) (victims.map (Death.mk c) ++ later) ∧
    w.registry.Tolled later after ∧
    (obs.Voiced w.registry c → w.registry.Tolled (victims.map (Death.mk c)) now ∧
      outcome.1 = (firstFailure now).map fun _ => true) ∧
    (obs.Voiceless w.registry c → now = [] ∧
      (victims ≠ [] → outcome.1 = .error (.delegateDropped (w.registry.containerId c))))

theorem World.Slain.spec {c : ContainerRef} {victims : List EntityRef}
    {w w' : World (χ × List Notice)} {answer : Except ContainerError Unit}
    (h : Slain obs.recorded Prod.snd c victims w answer w') :
    KillSpec obs c victims w (answer.map fun _ => true, w') where
  razed := h.razed
  emptied hx := h.razed.held_eq_empty fun _ _ hy => hx.of_held hy
  told := by
    obtain ⟨now, later, after, hlog, hannounced, htolled, hroll⟩ := h.told
    refine ⟨now, later, after, hlog, hroll, htolled, fun hvoiced => ?_, fun hvoiceless => ?_⟩
    · obtain ⟨hnow, rfl⟩ := hannounced.tolled (fun p hp => by
        obtain ⟨x, -, rfl⟩ := List.mem_map.1 hp
        exact hvoiced.recorded)
      exact ⟨hnow, rfl⟩
    · obtain ⟨hnow, hanswer⟩ := hannounced.silent hvoiceless.recorded
      refine ⟨hnow, fun hne => ?_⟩
      rw [hanswer hne]
      rfl

/-- To kill one entity is to kill a list of one. -/
theorem World.kill_eq_killListed (holds : Holds) {c : ContainerRef} {id : Uuid} {e : EntityRef}
    {w : World χ} (h : (killHeld obs (holds.lock c) c id w).1.1 = some e) :
    kill obs holds c id w = ((killListed obs holds c [id] w).1.map fun _ => true,
      (killListed obs holds c [id] w).2) := by
  unfold kill killListed killEach
  generalize killHeld obs (holds.lock c) c id w = killed at h
  obtain ⟨⟨victim, outcome⟩, w'⟩ := killed
  change victim = some e at h
  subst h
  cases outcome <;> rfl

section Contract

variable (hobs : obs.Steady) (holds : Holds) {c : ContainerRef} {w : World (χ × List Notice)}
  (hr : w.registry.Consistent) (hself : w.registry.SelfNamed)

include hobs hr hself

theorem World.killListed_spec {victims : List EntityRef} (h : w.registry.Siblings c victims) :
    KillSpec obs c victims w
      ((w.killListed obs.recorded holds c (victims.map w.registry.idOf)).1.map fun _ => true,
        (w.killListed obs.recorded holds c (victims.map w.registry.idOf)).2) :=
  (slain_killListed hobs.recorded obs.recorded_logs holds ⟨hr.sound, hr.full, hself⟩ h).spec

variable (c)

/-- Everything in a container dies in the order in which the container goes through it. -/
theorem World.killAll_spec : ∃ victims,
    victims.map w.registry.idOf = w.heldInOrder obs.recorded c ∧
      (∀ x, x ∈ victims ↔ ∃ id, w.registry.Held c id x) ∧
      KillSpec obs c victims w ((w.killAll obs.recorded holds c).1.map fun _ => true,
        (w.killAll obs.recorded holds c).2) := by
  obtain ⟨victims, hvictims, hsiblings, hmem⟩ :=
    hr.sound.exists_siblings (w.heldInOrder_perm obs.recorded c)
  refine ⟨victims, hvictims, hmem, ?_⟩
  rw [killAll, ← hvictims]
  exact killListed_spec hobs holds hr hself hsiblings

end Contract

/-- A kill takes the whole subtree, whatever listeners answer. -/
theorem kill_takes_subtree (hobs : obs.Steady) (holds : Holds) (c : ContainerRef)
    {w : World (χ × List Notice)} (hr : w.registry.Consistent) (hself : w.registry.SelfNamed) :
    (∀ {id e}, w.registry.Held c id e →
      KillSpec obs c [e] w ((Request.kill c id).perform obs.recorded holds w)) ∧
    (∀ {order}, order.Perm (w.registry.held c).keys →
      ∃ victims, victims.map w.registry.idOf = order ∧
        (∀ x, x ∈ victims ↔ ∃ id, w.registry.Held c id x) ∧
        KillSpec obs c victims w ((Request.killAll c order).perform obs.recorded holds w)) := by
  refine ⟨fun {id e} he => ?_, fun {order} hperm => ?_⟩
  · have hsettled : w.registry.Settled := ⟨hr.sound, hr.full, hself⟩
    have hsiblings : w.registry.Siblings c [e] :=
      ⟨fun hx => ⟨id, List.mem_singleton.1 hx ▸ he⟩, List.nodup_singleton e⟩
    have hspec := World.killListed_spec hobs holds hr hself hsiblings
    rw [List.map_singleton, hr.keyed he] at hspec
    have hvictim := (felled_killHeld hobs.recorded obs.recorded_logs (holds.lock c) hsettled he).1
    rw [Request.perform, kill_eq_killListed holds hvictim]
    exact hspec
  · obtain ⟨victims, rfl, hsiblings, hmem⟩ := hr.sound.exists_siblings hperm
    exact ⟨victims, rfl, hmem, World.killListed_spec hobs holds hr hself hsiblings⟩

end

open scoped PlainType

/-- A tree with three entities, each below the one before. -/
def generations : List Call :=
  [.newFactory .unbounded, .newContainer (.ofNat 100) ⟨0⟩,
    .create (.standalone 0) (.ofNat 1) none ∅, .create (.ofEntity ⟨0⟩) (.ofNat 2) none ∅,
    .create (.ofEntity ⟨1⟩) (.ofNat 3) none ∅]

/-- Listeners that fail at every event. -/
def Observers.failing : Observers Unit where
  lifecycle _ _ _ w := (.error ⟨"", none⟩, w)
  bag _ _ _ w := w
  slack _ := 0
  remains _ _ _ := true

/-- The same tree, with a listener at the container and another one at the first entity. -/
def heardGenerations : World (Unit × List Notice) where
  registry := ((trail generations).2.registry.setListeners (.standalone 0) ⟨[⟨0⟩]⟩).setListeners
    (.ofEntity ⟨0⟩) ⟨[⟨1⟩]⟩
  client := ((), [])

theorem coherent_heardGenerations : heardGenerations.registry.Coherent := by
  have hcoherent : (trail generations).2.registry.Coherent :=
    coherent_trail (by decide +kernel) (by decide +kernel) (by decide +kernel) (by decide +kernel)
      (by decide +kernel) (withinLimits_iff.2 (by decide +kernel))
  have hfirst := (sameForest_setListeners (c := .standalone 0) _ (by decide +kernel)
    ⟨[⟨0⟩]⟩).coherent hcoherent
  exact (sameForest_setListeners (c := .ofEntity ⟨0⟩) _ (by decide +kernel) ⟨[⟨1⟩]⟩).coherent hfirst

/-- Both listeners fail, the one that is called with the answer, the other one unnoticed. -/
theorem kill_takes_generations :
    KillSpec .failing (.standalone 0) [⟨0⟩] heardGenerations
        ((Request.kill (.standalone 0) (.ofNat 1)).perform Observers.failing.recorded .nothing
          heardGenerations) ∧
      (((Request.kill (.standalone 0) (.ofNat 1)).perform Observers.failing.recorded .nothing
        heardGenerations).2.client.2.map fun n => (n.listener, n.event.entity)) =
          [(⟨0⟩, ⟨0⟩), (⟨1⟩, ⟨1⟩)] := by
  have hcoherent := coherent_heardGenerations
  have hheld : heardGenerations.registry.Held (.standalone 0) (.ofNat 1) ⟨0⟩ := by
    unfold Registry.Held
    decide +kernel
  refine ⟨(kill_takes_subtree (fun _ _ _ _ => rfl) .nothing _ hcoherent.toConsistent
    (by decide +kernel)).1 hheld, by decide +kernel⟩

/-! ## A container whose delegate is gone -/

/-- A tree with one container, in which an entity has lived and died. -/
def buried : List Call :=
  [.newFactory .unbounded, .newContainer (.ofNat 100) ⟨0⟩,
    .create (.standalone 0) (.ofNat 7) none ∅, .kill (.standalone 0) (.ofNat 7)]

/-- Another container of the tree, which names the dead entity in events. -/
def mourning : Registry := ((trail buried).2.registry.newDelegating (.ofEntity ⟨0⟩) ⟨0⟩).2

/-- The entity 1 in this container. -/
def bereft : World (Unit × List Notice) where
  registry :=
    (World.create .quiet .nothing (.standalone 1) (.ofNat 1) none ∅ ⟨mourning, ()⟩).2.registry
  client := ((), [])

/-- Listeners that fail at nothing, where no delegate is left. -/
def Observers.forlorn : Observers Unit :=
  { Observers.quiet with remains := fun _ _ _ => false }

theorem coherent_buried : (trail buried).2.registry.Coherent :=
  coherent_trail (by decide +kernel) (by decide +kernel) (by decide +kernel) (by decide +kernel)
    (by decide +kernel) (withinLimits_iff.2 (by decide +kernel))

theorem extends_mourning : Extends (trail buried).2.registry mourning := extends_newDelegating _ _ _

theorem sound_mourning : mourning.Sound := extends_mourning.sound coherent_buried.sound

theorem full_mourning : mourning.Full :=
  extends_mourning.full coherent_buried.sound coherent_buried.full

theorem created_bereft :
    mourning.Created (.standalone 1) (.ofEntity ⟨0⟩) (.ofNat 1) ⟨1⟩ bereft.registry := by
  have hanswer : (World.create .quiet .nothing (.standalone 1) (.ofNat 1) none ∅
      ⟨mourning, ()⟩).1 = .ok ⟨1⟩ := by decide +kernel
  have hcreating := creating_create .nothing Observers.quiet_passive (.standalone 1) (.ofNat 1)
    none ∅ ⟨mourning, ()⟩
  rw [hanswer] at hcreating
  cases hcreating with
  | made created told =>
    rcases told with htold | ⟨failure, htold⟩
    · cases htold
      exact created
    · cases htold

theorem consistent_bereft : bereft.registry.Consistent := by
  have hexists : mourning.Exists (.standalone 1) := by decide +kernel
  have hid : mourning.containerId (.ofEntity ⟨0⟩) = mourning.containerId (.standalone 1) := by
    decide +kernel
  have hsound := created_bereft.sound sound_mourning hexists hid
    (created_bereft.free_of_full full_mourning)
  exact .of_sound_full hsound (created_bereft.full sound_mourning hexists hid full_mourning)
    (distinct_of_listed hsound.placed (by decide +kernel))

/-- The death of the entity 1 is answered with the delegate that is gone. -/
theorem not_told_of_kill :
    ¬ ∀ (obs : Observers Unit) (w : World (Unit × List Notice)) (c : ContainerRef) (id : Uuid)
        (e : EntityRef), obs.Steady → w.registry.Consistent → w.registry.SelfNamed →
        w.registry.Held c id e →
        ∃ notices, ((Request.kill c id).perform obs.recorded .nothing w).1 =
          (firstFailure notices).map fun _ => true := by
  intro hclaim
  have hnamed : mourning.SelfNamed :=
    SelfNamed.newDelegating (by decide +kernel) (.ofEntity ⟨0⟩) ⟨0⟩
  have hheld : bereft.registry.Held (.standalone 1) (.ofNat 1) ⟨1⟩ := by
    unfold Registry.Held
    decide +kernel
  have hanswer : ((Request.kill (.standalone 1) (.ofNat 1)).perform Observers.forlorn.recorded
      .nothing bereft).1 = .error (.delegateDropped (.ofNat 7)) := by decide +kernel
  obtain ⟨notices, htold⟩ := hclaim .forlorn bereft (.standalone 1) (.ofNat 1) ⟨1⟩
    (fun _ _ _ _ => rfl) consistent_bereft
    (hnamed.created (by decide +kernel) created_bereft) hheld
  rw [hanswer] at htold
  cases hfirst : firstFailure notices with
  | ok =>
    rw [hfirst] at htold
    cases htold
  | error failure =>
    obtain ⟨_, _, _, cause, -, -, -, rfl⟩ := firstFailure_eq_error_iff.1 hfirst
    rw [hfirst] at htold
    cases htold

end EntityForest
