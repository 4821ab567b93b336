import EntityForest.Proofs.Refusals

/-! # Verdicts and commitments

An operation commits before its event is announced, so what it commits does not depend on what the
listeners say. Two runs of one request whose listeners differ in nothing but their verdicts are both
compared with a third, in which every listener accepts every event. -/

namespace EntityForest

variable [ValueTypes]

/-- The verdicts of listeners that do nothing but judge. They may depend on everything in sight and
on a state of the listeners' own. -/
abbrev Judge (χ σ : Type) :=
  Holds → ListenerRef → Event → World (χ × σ) → Except ListenerError Unit × σ

/-- A world without what only the judges in it know. -/
def World.core {χ σ : Type} (w : World (χ × σ)) : World χ := ⟨w.registry, w.client.1⟩

namespace Observers

variable {χ σ : Type}

/-- The same observers with listeners that only judge. -/
def judged (obs : Observers χ) (judge : Judge χ σ) : Observers (χ × σ) where
  lifecycle holds l event w :=
    let (verdict, s) := judge holds l event w
    (verdict, { w with client := (w.client.1, s) })
  bag holds l event w :=
    let v := obs.bag holds l event w.core
    ⟨v.registry, v.client, w.client.2⟩
  slack c := obs.slack c.1
  remains holds w c := obs.remains holds w.core c
  order w := obs.order w.core
  order_perm w := obs.order_perm w.core

/-- The same observers with listeners that accept every event. -/
def assenting (obs : Observers χ) : Observers χ :=
  { obs with lifecycle := fun _ _ _ w => (.ok (), w) }

end Observers

namespace World

variable {χ σ : Type}

/-- The first outcome is the second one, but for what judges know and for a failure of theirs. -/
structure Follows {α : Type} (x : Except ContainerError α × World (χ × σ))
    (y : Except ContainerError α × World χ) : Prop where
  world : x.2.core = y.2
  answer : x.1 = y.1 ∨ ∃ failure, x.1 = .error (.listener failure)

theorem Follows.of_eq {α : Type} {x : Except ContainerError α × World (χ × σ)}
    {y : Except ContainerError α × World χ} (hworld : x.2.core = y.2) (hanswer : x.1 = y.1) :
    Follows x y :=
  ⟨hworld, .inl hanswer⟩

variable (obs : Observers χ) (judge : Judge χ σ) (holds : Holds)

/-! ## Announcing -/

theorem core_announce (c : ContainerRef) (event : Event) (w : World (χ × σ)) :
    (announce (obs.judged judge) holds c event w).2.core = w.core :=
  announce_induct (P := fun v => v.core = w.core) holds (fun _ _ _ hv => hv) c rfl

theorem announce_assenting (c : ContainerRef) (event : Event) (w : World χ) :
    announce obs.assenting holds c event w = (.ok (), w) := by
  have hfire : ∀ holds ls,
      fire (fun l => obs.assenting.lifecycle holds l event) ls w = (.ok (), w) := by
    intro holds ls
    induction ls with
    | nil => rfl
    | cons l ls ih => exact ih
  rw [announce, notify, hfire]

theorem follows_announce (c : ContainerRef) (event : Event) (w : World (χ × σ)) :
    Follows (announce (obs.judged judge) holds c event w)
      (announce obs.assenting holds c event w.core) := by
  rw [announce_assenting]
  exact ⟨core_announce obs judge holds c event w, (heard_announce holds _ c event w).ok_or⟩

theorem delegate_judged (c : ContainerRef) (w : World (χ × σ)) :
    delegate (obs.judged judge) holds c w = delegate obs.assenting holds c w.core := rfl

/-! ## Creating -/

theorem follows_create (c : ContainerRef) (id : Uuid) (marker : Option Marker)
    (seed : Table Slot Value) (w : World (χ × σ)) :
    Follows (create (obs.judged judge) holds c id marker seed w)
      (create obs.assenting holds c id marker seed w.core) := by
  unfold create
  rw [delegate_judged, show w.core.registry = w.registry from rfl]
  cases w.registry.create c (delegate obs.assenting holds c w.core) id marker seed with
  | error refusal => exact .of_eq rfl rfl
  | ok made =>
    have htold := follows_announce obs judge (holds.lock c) c
      ⟨.created, made.delegate, made.entity, none⟩ { w with registry := made.registry }
    rw [announce_assenting] at htold
    simp only [announce_assenting]
    generalize announce (obs.judged judge) (holds.lock c) c _ _ = told at htold ⊢
    obtain ⟨outcome, w'⟩ := told
    rcases htold with ⟨hworld, rfl | ⟨failure, rfl⟩⟩
    · exact .of_eq hworld rfl
    · exact ⟨hworld, .inr ⟨failure, rfl⟩⟩

theorem follows_newEntityOfType (c : ContainerRef) (id : Uuid) (marker : Marker)
    (seed : Table Slot Value) (w : World (χ × σ)) :
    Follows (newEntityOfType (obs.judged judge) holds c id marker seed w)
      (newEntityOfType obs.assenting holds c id marker seed w.core) := by
  have hmade := follows_create obs judge holds c id (some marker) seed w
  unfold newEntityOfType
  generalize create (obs.judged judge) holds c id (some marker) seed w = x at hmade ⊢
  generalize create obs.assenting holds c id (some marker) seed w.core = y at hmade ⊢
  obtain ⟨answer, w'⟩ := x
  obtain ⟨answer', v⟩ := y
  obtain ⟨rfl, rfl | ⟨failure, rfl⟩⟩ := hmade
  · cases answer with
    | ok e => exact .of_eq rfl rfl
    | error failure => exact .of_eq rfl rfl
  · exact ⟨by cases answer' <;> rfl, .inr ⟨failure, rfl⟩⟩

/-! ## Killing -/

theorem follows_announceKilled (c : ContainerRef) (e : EntityRef) (w : World (χ × σ)) :
    Follows (announceKilled (obs.judged judge) holds c e w)
      (announceKilled obs.assenting holds c e w.core) := by
  unfold announceKilled
  rw [delegate_judged]
  cases delegate obs.assenting holds c w.core with
  | error refusal => exact .of_eq rfl rfl
  | ok d => exact follows_announce obs judge holds c ⟨.killed, d, e, none⟩ w

/-- Deaths follow one another: the same entities die, whatever is said about it. -/
structure FollowsDeaths {α : Type} (x : (α × Except ContainerError Unit) × World (χ × σ))
    (y : (α × Except ContainerError Unit) × World χ) : Prop where
  victims : x.1.1 = y.1.1
  follows : Follows (x.1.2, x.2) (y.1.2, y.2)

theorem follows_killHeld (c : ContainerRef) (id : Uuid) (w : World (χ × σ)) :
    FollowsDeaths (killHeld (obs.judged judge) holds c id w)
      (killHeld obs.assenting holds c id w.core) := by
  unfold killHeld
  rw [show w.core.registry = w.registry from rfl]
  cases w.registry.kill c id with
  | none => exact ⟨rfl, .of_eq rfl rfl⟩
  | some victim =>
    obtain ⟨e, r⟩ := victim
    refine ⟨rfl, ?_⟩
    exact follows_announceKilled obs judge (holds.keepEntities [e]) c e { w with registry := r }

theorem follows_killEach (c : ContainerRef) (ids : List Uuid) (w : World (χ × σ)) :
    FollowsDeaths (killEach (obs.judged judge) c holds ids w)
      (killEach obs.assenting c holds ids w.core) := by
  induction ids generalizing holds w with
  | nil => exact ⟨rfl, .of_eq rfl rfl⟩
  | cons id ids ih =>
    have hfirst := follows_killHeld obs judge holds c id w
    unfold killEach
    generalize killHeld (obs.judged judge) holds c id w = x at hfirst ⊢
    generalize killHeld obs.assenting holds c id w.core = y at hfirst ⊢
    obtain ⟨⟨victim, outcome⟩, w'⟩ := x
    obtain ⟨⟨_, outcome'⟩, _⟩ := y
    obtain ⟨rfl, rfl, hanswer⟩ := hfirst
    have hlater := ih (holds.keepEntities victim.toList) w'
    refine ⟨congrArg (victim.toList ++ ·) hlater.victims, hlater.follows.world, ?_⟩
    change outcome = outcome' ∨ ∃ failure, outcome = _ at hanswer
    rcases hanswer with rfl | ⟨failure, rfl⟩
    · cases outcome with
      | ok => exact hlater.follows.answer
      | error refusal => exact .inl rfl
    · exact .inr ⟨failure, rfl⟩

theorem core_eachOfDead {f : Holds → EntityRef → World (χ × σ) → World (χ × σ)}
    {g : Holds → EntityRef → World χ → World χ}
    (hfg : ∀ holds e w, (f holds e w).core = g holds e w.core) (es : List EntityRef)
    (w : World (χ × σ)) : (eachOfDead holds f es w).core = eachOfDead holds g es w.core := by
  induction es generalizing w with
  | nil => rfl
  | cons e es ih => rw [eachOfDead, eachOfDead, ih, hfg]

theorem core_shutDown (depth : Nat) (e : EntityRef) (w : World (χ × σ)) :
    (shutDown (obs.judged judge) depth holds e w).core =
      shutDown obs.assenting depth holds e w.core := by
  induction depth generalizing holds e w with
  | zero => rfl
  | succ depth ih =>
    have hdeaths := follows_killEach obs judge
      ((holds.gate (.ofEntity e)).lock (.ofEntity e)) (.ofEntity e)
      (heldInOrder (obs.judged judge) (.ofEntity e)
        { w with registry := w.registry.close (.ofEntity e) })
      { w with registry := w.registry.close (.ofEntity e) }
    rw [shutDown, shutDown, core_eachOfDead holds ih, hdeaths.victims]
    exact congrArg _ hdeaths.follows.world

theorem core_shutDownEach (victims : List EntityRef) (w : World (χ × σ)) :
    (shutDownEach (obs.judged judge) holds victims w).core =
      shutDownEach obs.assenting holds victims w.core :=
  core_eachOfDead holds
    (fun holds e w => core_shutDown obs judge holds (depth obs w.core) e w)
    victims w

theorem follows_kill (c : ContainerRef) (id : Uuid) (w : World (χ × σ)) :
    Follows (kill (obs.judged judge) holds c id w) (kill obs.assenting holds c id w.core) := by
  have hdeath := follows_killHeld obs judge (holds.lock c) c id w
  unfold kill
  refine ⟨?_, ?_⟩
  · rw [core_shutDownEach, hdeath.victims]
    exact congrArg _ hdeath.follows.world
  · rcases hdeath.follows.answer with hanswer | ⟨failure, hfailure⟩
    · left
      change Except.map _ _ = Except.map _ _
      rw [hdeath.victims]
      exact congrArg _ hanswer
    · exact .inr ⟨failure, congrArg (Except.map _) hfailure⟩

theorem follows_killListed (c : ContainerRef) (ids : List Uuid) (w : World (χ × σ)) :
    Follows (killListed (obs.judged judge) holds c ids w)
      (killListed obs.assenting holds c ids w.core) := by
  have hdeaths := follows_killEach obs judge (holds.lock c) c ids w
  unfold killListed
  refine ⟨?_, hdeaths.follows.answer⟩
  rw [core_shutDownEach, hdeaths.victims]
  exact congrArg _ hdeaths.follows.world

/-! ## Moving -/

/-- An arrival follows another one, and a failure is heard only where an entity has come in. -/
theorem follows_receive (c : ContainerRef) (e : EntityRef) (w : World (χ × σ)) :
    Follows (receive (obs.judged judge) holds c e w) (receive obs.assenting holds c e w.core) ∧
      ∀ failure, (receive (obs.judged judge) holds c e w).1 = .error (.listener failure) →
        (receive obs.assenting holds c e w.core).1 = .ok true := by
  unfold receive
  simp only
  rw [show w.core.registry = w.registry from rfl]
  split
  · exact ⟨.of_eq rfl rfl, nofun⟩
  rw [delegate_judged]
  rcases delegate_eq (holds.keepEntities [e]) obs.assenting c w.core with h | ⟨-, h⟩
  swap
  · rw [h]
    exact ⟨.of_eq rfl rfl, nofun⟩
  rw [h]
  simp only
  cases w.registry.receive c (w.core.registry.delegateOf c) e with
  | none => exact ⟨.of_eq rfl rfl, nofun⟩
  | some entered =>
    obtain ⟨arrival, s⟩ := entered
    cases arrival with
    | taken => exact ⟨.of_eq rfl rfl, nofun⟩
    | imported =>
      have htold := follows_announce obs judge
        ((holds.keepEntities [e]).lock c) c
        ⟨.received, w.core.registry.delegateOf c, e, none⟩ { w with registry := s }
      rw [announce_assenting] at htold
      simp only [announce_assenting]
      generalize announce (obs.judged judge) _ c _ _ = told at htold ⊢
      obtain ⟨outcome, w'⟩ := told
      rcases htold with ⟨hworld, rfl | ⟨failure, rfl⟩⟩
      · exact ⟨.of_eq hworld rfl, nofun⟩
      · exact ⟨⟨hworld, .inr ⟨failure, rfl⟩⟩, fun _ _ => trivial⟩

theorem follows_depart (src dst delegate : ContainerRef) (id : Uuid) (e : EntityRef)
    {arrival arrival' : Except ContainerError Unit}
    (harrival : arrival = arrival' ∨ ∃ failure, arrival = .error (.listener failure))
    (w : World (χ × σ)) :
    Follows (depart (obs.judged judge) holds src dst delegate id e arrival w)
      (depart obs.assenting holds src dst delegate id e arrival' w.core) := by
  have htold := follows_announce obs judge holds src
    ⟨.transferred, delegate, e, some dst⟩
    { w with registry := w.registry.setHeld src ((w.registry.held src).erase id) }
  unfold depart
  refine ⟨htold.world, ?_⟩
  rcases harrival with rfl | ⟨failure, rfl⟩
  · cases arrival with
    | ok =>
      rcases htold.answer with hanswer | ⟨failure, hfailure⟩
      · exact .inl (congrArg (Except.map _) hanswer)
      · exact .inr ⟨failure, congrArg (Except.map _) hfailure⟩
    | error refusal => exact .inl rfl
  · exact .inr ⟨failure, rfl⟩

theorem follows_transfer (src : ContainerRef) (id : Uuid) (dst : ContainerRef)
    (w : World (χ × σ)) :
    Follows (transfer (obs.judged judge) holds src id dst w)
      (transfer obs.assenting holds src id dst w.core) := by
  unfold transfer
  simp only
  rw [show w.core.registry = w.registry from rfl]
  split
  · exact .of_eq rfl rfl
  split
  · exact .of_eq rfl rfl
  cases (w.registry.container src).entities.find? id with
  | none => exact .of_eq rfl rfl
  | some e =>
    simp only
    split
    · exact .of_eq rfl rfl
    rw [delegate_judged]
    generalize (((holds.gate src).gate dst).lock src).keepEntities [e] = holds
    cases delegate obs.assenting holds src w.core with
    | error refusal => exact .of_eq rfl rfl
    | ok d =>
      simp only
      generalize (!w.registry.sameTree (w.registry.container src).factory d dst) = leaves
      set offer : World (χ × σ) :=
        if leaves then
          { w with registry := w.registry.release (w.registry.container src).factory e }
        else w
      have hcore : offer.core =
          if leaves then
            { registry := w.registry.release (w.registry.container src).factory e,
              client := w.core.client }
          else w.core := by
        cases leaves <;> rfl
      rw [← hcore]
      obtain ⟨hfollows, hin⟩ :=
        follows_receive obs judge (holds.keep [d]) dst e offer
      generalize receive (obs.judged judge) (holds.keep [d]) dst e offer = x at hfollows hin ⊢
      generalize receive obs.assenting (holds.keep [d]) dst e offer.core = y at hfollows hin ⊢
      obtain ⟨answer, w'⟩ := x
      obtain ⟨answer', v⟩ := y
      obtain ⟨rfl, rfl | ⟨failure, rfl⟩⟩ := hfollows
      · cases answer with
        | ok moved =>
          cases moved with
          | true => exact follows_depart obs judge _ src dst d id e (.inl rfl) w'
          | false => exact .of_eq rfl rfl
        | error refusal =>
          cases refusal with
          | listener failure => exact follows_depart obs judge _ src dst d id e (.inl rfl) w'
          | _ => exact .of_eq rfl rfl
      · obtain rfl : answer' = .ok true := hin failure rfl
        exact follows_depart obs judge _ src dst d id e (.inr ⟨failure, rfl⟩) w'

/-! ## All operations -/

theorem Follows.map {α β : Type} (f : α → β) {x : Except ContainerError α × World (χ × σ)}
    {y : Except ContainerError α × World χ} (h : Follows x y) :
    Follows (x.1.map f, x.2) (y.1.map f, y.2) := by
  refine ⟨h.world, ?_⟩
  rcases h.answer with heq | ⟨failure, heq⟩
  · exact .inl (congrArg (Except.map f) heq)
  · exact .inr ⟨failure, congrArg (Except.map f) heq⟩

theorem follows_perform (request : Request) (w : World (χ × σ)) :
    Follows (request.perform (obs.judged judge) holds w)
      (request.perform obs.assenting holds w.core) := by
  cases request with
  | newEntity c id seed => exact (follows_create obs judge holds c id none seed w).map _
  | newEntityOfType c id marker seed =>
    exact (follows_newEntityOfType obs judge holds c id marker seed w).map _
  | kill c id => exact follows_kill obs judge holds c id w
  | killAll c order => exact (follows_killListed obs judge holds c order w).map _
  | transfer src id dst => exact follows_transfer obs judge holds src id dst w
  | receive c e => exact (follows_receive obs judge holds c e w).1

end World

/-- Whatever listeners say about its events, a request has the same effect on everything they could
see, and it has the same answer unless one of them has failed it. -/
theorem same_effect_of_any_verdicts {χ σ₁ σ₂ : Type} (obs : Observers χ) (judge₁ : Judge χ σ₁)
    (judge₂ : Judge χ σ₂) (holds : Holds) (request : Request) (r : Registry) (client : χ) (s₁ : σ₁)
    (s₂ : σ₂) :
    let first := request.perform (obs.judged judge₁) holds ⟨r, (client, s₁)⟩
    let second := request.perform (obs.judged judge₂) holds ⟨r, (client, s₂)⟩
    first.2.registry = second.2.registry ∧ first.2.client.1 = second.2.client.1 ∧
      (first.1 = second.1 ∨ (∃ failure, first.1 = .error (.listener failure)) ∨
        ∃ failure, second.1 = .error (.listener failure)) := by
  intro first second
  have hfirst := World.follows_perform obs judge₁ holds request
    ⟨r, (client, s₁)⟩
  have hsecond := World.follows_perform obs judge₂ holds request
    ⟨r, (client, s₂)⟩
  have hcore : first.2.core = second.2.core := hfirst.world.trans hsecond.world.symm
  refine ⟨congrArg World.registry hcore, congrArg World.client hcore, ?_⟩
  rcases hfirst.answer with hanswer | hfailure
  · exact hsecond.answer.imp (fun h => hanswer.trans h.symm) .inr
  · exact .inr (.inl hfailure)

end EntityForest
