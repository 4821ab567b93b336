import EntityForest.Proofs.Migration

/-! # How an operation can end

Each operation decides, commits and then announces. With listeners that leave the forest alone an
operation ends in one of a few ways, and what it commits is one change of the registry. -/

namespace EntityForest

variable [ValueTypes]

/-- The listeners leave the forest as it is, whether or not they accept an event. They may still
mark entities, change attributes and register one another. -/
structure Observers.Passive {χ : Type} (obs : Observers χ) : Prop where
  sameForest : ∀ holds l event w,
    Registry.SameForest w.registry (obs.lifecycle holds l event w).2.registry

/-- No listener ever fails. -/
def Observers.Accepting {χ : Type} (obs : Observers χ) : Prop :=
  ∀ holds l event w, (obs.lifecycle holds l event w).1 = .ok ()

/-- What a transfer holds while it looks for the delegate of its source. -/
def Holds.moving (holds : Holds) (src dst : ContainerRef) (e : EntityRef) : Holds :=
  (((holds.gate src).gate dst).lock src).keepEntities [e]

/-- What a transfer holds while the destination receives the entity. -/
def Holds.handing (holds : Holds) (r : Registry) (src dst : ContainerRef) (e : EntityRef) : Holds :=
  (holds.moving src dst e).keep [r.delegateOf src]

namespace World

open Registry (SameForest)

variable {χ : Type} {obs : Observers χ} (holds : Holds)

/-! ## Announcing -/

/-- The answer of an announcement, which listeners that accept everything make a success. -/
structure Heard (obs : Observers χ) (answer : Except ContainerError Unit) : Prop where
  ok_or : answer = .ok () ∨ ∃ failure, answer = .error (.listener failure)
  ok_of_accepting : obs.Accepting → answer = .ok ()

/-- What every call of a listener preserves, calling several preserves. -/
theorem fire_induct {P : World χ → Prop}
    {call : ListenerRef → World χ → Except ListenerError Unit × World χ}
    (h : ∀ l w, P w → P (call l w).2) (ls : List ListenerRef) {w : World χ} (hw : P w) :
    P (fire call ls w).2 := by
  induction ls generalizing w with
  | nil => exact hw
  | cons l ls ih =>
    have hcall := h l w hw
    rw [fire]
    cases hanswer : call l w with
    | mk answer w' =>
      rw [hanswer] at hcall
      cases answer with
      | ok => exact ih hcall
      | error => exact hcall

theorem fire_of_accepting (hobs : obs.Accepting) (event : Event) (ls : List ListenerRef)
    (w : World χ) : (fire (fun l => obs.lifecycle holds l event) ls w).1 = .ok () := by
  induction ls generalizing w with
  | nil => rfl
  | cons l ls ih =>
    have hcall := hobs holds l event w
    rw [fire]
    cases hanswer : obs.lifecycle holds l event w with
    | mk answer w' =>
      rw [hanswer] at hcall
      subst hcall
      exact ih w'

/-- Calls the listeners of a container in turn. -/
def tell (obs : Observers χ) (c : ContainerRef) (event : Event) (w : World χ) :
    Except ListenerError Unit × World χ :=
  fire (fun l => obs.lifecycle (holds.keepEvent event (w.registry.audience c)) l event)
    (w.registry.audience c) w

theorem announce_eq (obs : Observers χ) (c : ContainerRef) (event : Event) (w : World χ) :
    announce obs holds c event w =
      ((tell holds obs c event w).1.mapError .listener, (tell holds obs c event w).2) := by
  have htell : fire (fun l => obs.lifecycle
      (holds.keepEvent event (w.registry.container c).listeners.members) l event)
      (w.registry.container c).listeners.members w = tell holds obs c event w := rfl
  rw [announce, notify, htell]
  cases tell holds obs c event w with
  | mk answer w' => cases answer <;> rfl

theorem heard_announce (obs : Observers χ) (c : ContainerRef) (event : Event) (w : World χ) :
    Heard obs (announce obs holds c event w).1 := by
  rw [announce_eq]
  constructor
  · cases (tell holds obs c event w).1 with
    | ok => exact .inl rfl
    | error failure => exact .inr ⟨failure, rfl⟩
  · intro haccept
    rw [tell, fire_of_accepting _ haccept]
    rfl

theorem announce_induct {P : World χ → Prop} {event : Event}
    (h : ∀ holds l w, P w → P (obs.lifecycle holds l event w).2) (c : ContainerRef)
    {w : World χ} (hw : P w) : P (announce obs holds c event w).2 := by
  rw [announce_eq]
  exact fire_induct (h _) (w.registry.audience c) hw

theorem sameForest_announce (hobs : obs.Passive) (c : ContainerRef) (event : Event) (w : World χ) :
    SameForest w.registry (announce obs holds c event w).2.registry :=
  announce_induct (P := fun v => SameForest w.registry v.registry) holds
    (fun holds l v hv => hv.trans (hobs.sameForest holds l event v)) c (.refl _)

theorem delegate_eq (obs : Observers χ) (c : ContainerRef) (w : World χ) :
    delegate obs holds c w = .ok (w.registry.delegateOf c) ∨
      w.registry.delegateOf c ≠ c ∧
        delegate obs holds c w = .error (.delegateDropped (w.registry.containerId c)) := by
  unfold delegate
  simp only
  split
  · exact .inl rfl
  · rename_i hgone
    exact .inr ⟨fun heq => hgone (.inl heq), rfl⟩

/-! ## Creating -/

/-- How a creation can end: it is refused, or the entity is there, also where a listener fails. -/
inductive Creating (w : World χ) (c : ContainerRef) (id : Uuid) :
    Except ContainerError EntityRef → World χ → Prop
  | refused {refusal : ContainerError} (unlike : ∀ e name, refusal ≠ .typeMismatch e name) :
      Creating w c id (.error refusal) w
  | made {e : EntityRef} {answer : Except ContainerError EntityRef} {w' : World χ}
      (created : w.registry.Created c (w.registry.delegateOf c) id e w'.registry)
      (told : answer = .ok e ∨ ∃ failure, answer = .error (.listener failure)) :
      Creating w c id answer w'

/-- No check before a creation looks at marks. -/
theorem ne_typeMismatch_of_create {r : Registry} {c : ContainerRef}
    {delegate : Except ContainerError ContainerRef} {id : Uuid} {marker : Option Marker}
    {seed : Table Slot Value} {refusal : ContainerError} (e : Uuid) (name : String)
    (hdelegate : ∀ failure, delegate = .error failure → failure ≠ .typeMismatch e name)
    (h : r.create c delegate id marker seed = .error refusal) : refusal ≠ .typeMismatch e name := by
  unfold Registry.create at h
  split at h
  · cases h
    nofun
  cases delegate with
  | error failure =>
    cases h
    exact hdelegate refusal rfl
  | ok delegate =>
    simp only at h
    split at h
    · cases h
      nofun
    split at h
    · cases h
      nofun
    split at h
    · rename_i failure hmint
      cases h
      unfold Registry.mint at hmint
      split at hmint
      · cases hmint
        nofun
      · split at hmint
        · cases hmint
          nofun
        · cases hmint
    · cases h

/-- Only a container whose delegate is there creates anything. -/
theorem create_of_delegate {c : ContainerRef} {id : Uuid} {marker : Option Marker}
    {seed : Table Slot Value} {w : World χ} {made : Creation}
    (h : w.registry.create c (delegate obs holds c w) id marker seed = .ok made) :
    w.registry.create c (.ok (w.registry.delegateOf c)) id marker seed = .ok made := by
  rcases delegate_eq holds obs c w with hdelegate | ⟨-, hdelegate⟩
  · rwa [hdelegate] at h
  · rw [hdelegate] at h
    unfold Registry.create at h
    split at h <;> cases h

/-- A creation that is refused changes nothing, and any other ends with its announcement. -/
theorem create_induct {P : World χ → Prop} {c : ContainerRef} {id : Uuid} {marker : Option Marker}
    {seed : Table Slot Value} {w : World χ} (hw : P w)
    (htold : ∀ made, w.registry.create c (.ok (w.registry.delegateOf c)) id marker seed = .ok made →
      P (announce obs (holds.lock c) c ⟨.created, made.delegate, made.entity, none⟩
        { w with registry := made.registry }).2) :
    P (create obs holds c id marker seed w).2 := by
  unfold create
  split
  · exact hw
  · rename_i made hmade
    have hlast := htold made (create_of_delegate holds hmade)
    simp only
    split
    all_goals
      rename_i heq
      rw [heq] at hlast
      exact hlast

theorem snd_newEntityOfType (obs : Observers χ) (c : ContainerRef) (id : Uuid) (marker : Marker)
    (seed : Table Slot Value) (w : World χ) :
    (newEntityOfType obs holds c id marker seed w).2 =
      (create obs holds c id (some marker) seed w).2 := by
  unfold newEntityOfType
  split
  all_goals
    rename_i heq
    rw [heq]

theorem creating_create (hobs : obs.Passive) (c : ContainerRef) (id : Uuid) (marker : Option Marker)
    (seed : Table Slot Value) (w : World χ) :
    Creating w c id (create obs holds c id marker seed w).1
      (create obs holds c id marker seed w).2 := by
  unfold create
  cases hmade : w.registry.create c (delegate obs holds c w) id marker seed with
  | error refusal =>
    refine .refused fun e name =>
      ne_typeMismatch_of_create e name (fun failure hfailure => ?_) hmade
    rcases delegate_eq holds obs c w with h | ⟨-, h⟩
    · rw [h] at hfailure
      cases hfailure
    · rw [h] at hfailure
      cases hfailure
      nofun
  | ok made =>
    have hcreated := (Registry.created_of_create (create_of_delegate holds hmade)).1
    have hheard := heard_announce (holds.lock c) obs c
      ⟨.created, made.delegate, made.entity, none⟩ { w with registry := made.registry }
    have hsame := sameForest_announce (holds.lock c) hobs c
      ⟨.created, made.delegate, made.entity, none⟩ { w with registry := made.registry }
    simp only
    split
    · rename_i w' heq
      rw [heq] at hsame
      exact .made (hcreated.of_sameForest hsame) (.inl rfl)
    · rename_i failure w' heq
      rw [heq] at hheard hsame
      refine .made (hcreated.of_sameForest hsame) (.inr ?_)
      rcases hheard.ok_or with h | ⟨failure', h⟩
      · cases h
      · cases h
        exact ⟨failure', rfl⟩

/-! ## Killing -/

/-- One change that a cascade of deaths makes. -/
inductive Culls (r : Registry) : Registry → Prop
  | kill {c : ContainerRef} {id : Uuid} {e : EntityRef} {s : Registry}
      (killed : r.Killed c id e s) : Culls r s
  | close (e : EntityRef) : Culls r (r.close (.ofEntity e))
  | same {s : Registry} (same : SameForest r s) : Culls r s

/-- Any number of such changes. -/
abbrev Culled : Registry → Registry → Prop := Relation.ReflTransGen Culls

/-- How the death of one held entity can end: there is none to kill, or it is dead, also where its
death could not be announced. -/
inductive Killing (w : World χ) (c : ContainerRef) (id : Uuid) :
    Option EntityRef × Except ContainerError Unit → World χ → Prop
  | none : Killing w c id (none, .ok ()) w
  | dead {e : EntityRef} {s : Registry} {answer : Except ContainerError Unit} {w' : World χ}
      (killed : w.registry.Killed c id e s) (same : SameForest s w'.registry)
      (told : answer = .ok () ∨ (∃ failure, answer = .error (.listener failure)) ∨
        ∃ id, answer = .error (.delegateDropped id)) :
      Killing w c id (some e, answer) w'

theorem killing_killHeld (hobs : obs.Passive) (c : ContainerRef) (id : Uuid) (w : World χ) :
    Killing w c id (killHeld obs holds c id w).1 (killHeld obs holds c id w).2 := by
  unfold killHeld
  cases hkill : w.registry.kill c id with
  | none => exact .none
  | some victim =>
    obtain ⟨e, r⟩ := victim
    have hkilled := Registry.killed_of_kill hkill
    simp only [announceKilled]
    rcases delegate_eq (holds.keepEntities [e]) obs c { w with registry := r } with
      h | ⟨-, h⟩
    · rw [h]
      refine .dead hkilled (sameForest_announce _ hobs c _ { w with registry := r }) ?_
      exact (heard_announce _ obs c _ _).ok_or.imp_right .inl
    · rw [h]
      exact .dead hkilled (.refl r) (.inr (.inr ⟨_, rfl⟩))

theorem Killing.culled {w w' : World χ} {c : ContainerRef} {id : Uuid}
    {answer : Option EntityRef × Except ContainerError Unit} (h : Killing w c id answer w') :
    Culled w.registry w'.registry := by
  cases h with
  | none => exact .refl
  | dead killed same _ => exact .tail (.single (.kill killed)) (.same same)

/-- Deaths in turn. On the way, `P` is about the identities that have been gone through and the
entities that have died, in any order. -/
theorem killEach_collect {P : List Uuid → List EntityRef → World χ → Prop} {c : ContainerRef}
    {ids : List Uuid}
    (hperm : ∀ {done dead dead' w}, dead'.Perm dead → P done dead w → P done dead' w)
    (hkill : ∀ holds id done dead w, id ∈ ids → P done dead w →
      P (done ++ [id]) ((killHeld obs holds c id w).1.1.toList ++ dead)
        (killHeld obs holds c id w).2)
    {dead : List EntityRef} {w : World χ} (hw : P [] dead w) :
    P ids ((killEach obs c holds ids w).1.1 ++ dead) (killEach obs c holds ids w).2 := by
  suffices hmore : ∀ done, P done dead w →
      P (done ++ ids) ((killEach obs c holds ids w).1.1 ++ dead) (killEach obs c holds ids w).2 from
    hmore [] hw
  clear hw
  induction ids generalizing holds dead w with
  | nil =>
    intro done hw
    rw [List.append_nil]
    exact hw
  | cons id ids ih =>
    intro done hw
    have hone := hkill holds id done dead w List.mem_cons_self hw
    rw [killEach]
    generalize killHeld obs holds c id w = killed at hone
    obtain ⟨⟨victim, outcome⟩, w'⟩ := killed
    have hlater := ih (holds.keepEntities victim.toList) (fun holds id done dead w hid =>
      hkill holds id done dead w (List.mem_cons_of_mem _ hid)) (done ++ [id]) hone
    rw [List.append_assoc, List.singleton_append] at hlater
    refine hperm ?_ hlater
    rw [← List.append_assoc]
    exact List.perm_append_comm.append_right dead

/-- Something done for each of some dead entities in turn: at any time there is a list of those that
are still to come. -/
theorem eachOfDead_collect {P : List EntityRef → World χ → Prop}
    {f : Holds → EntityRef → World χ → World χ} {es : List EntityRef}
    (hf : ∀ e ∈ es, ∀ holds dead w, P (e :: dead) w → P dead (f holds e w)) {dead : List EntityRef}
    {w : World χ} (hw : P (es ++ dead) w) : P dead (eachOfDead holds f es w) := by
  induction es generalizing w with
  | nil => exact hw
  | cons e es ih =>
    exact ih (fun x hx => hf x (List.mem_cons_of_mem e hx)) (hf e List.mem_cons_self _ _ w hw)

section Induction

variable {P : World χ → Prop}
  (hkill : ∀ holds c id w, P w → P (killHeld obs holds c id w).2)
  (hclose : ∀ e w, P w → P { w with registry := w.registry.close (.ofEntity e) })

include hkill in
/-- What each death preserves, several deaths preserve. -/
theorem killEach_induct (c : ContainerRef) (holds : Holds) (ids : List Uuid) {w : World χ}
    (hw : P w) : P (killEach obs c holds ids w).2 := by
  induction ids generalizing holds w with
  | nil => exact hw
  | cons id ids ih => exact ih _ (hkill holds c id w hw)

theorem eachOfDead_induct {f : Holds → EntityRef → World χ → World χ}
    (hf : ∀ holds e w, P w → P (f holds e w)) (es : List EntityRef) {w : World χ} (hw : P w) :
    P (eachOfDead holds f es w) := by
  induction es generalizing w with
  | nil => exact hw
  | cons e es ih => exact ih (hf _ e w hw)

include hkill hclose

/-- What each death and each closing preserves, a cascade preserves. -/
theorem shutDown_induct (depth : Nat) (holds : Holds) (e : EntityRef) {w : World χ} (hw : P w) :
    P (shutDown obs depth holds e w) := by
  induction depth generalizing holds e w with
  | zero => exact hclose e w hw
  | succ depth ih =>
    have hkilled (ids : List Uuid) := killEach_induct hkill (.ofEntity e)
      ((holds.gate (.ofEntity e)).lock (.ofEntity e)) ids (hclose e w hw)
    exact eachOfDead_induct _ (fun holds e w hw => ih holds e hw) _ (hkilled _)

theorem shutDownEach_induct (victims : List EntityRef) {w : World χ} (hw : P w) :
    P (shutDownEach obs holds victims w) :=
  eachOfDead_induct holds
    (fun holds e w hw => shutDown_induct hkill hclose (depth obs w) holds e hw) victims hw

theorem kill_induct (c : ContainerRef) (id : Uuid) {w : World χ} (hw : P w) :
    P (kill obs holds c id w).2 :=
  shutDownEach_induct _ hkill hclose _ (hkill (holds.lock c) c id w hw)

theorem killListed_induct (c : ContainerRef) (ids : List Uuid) {w : World χ} (hw : P w) :
    P (killListed obs holds c ids w).2 :=
  shutDownEach_induct _ hkill hclose _ (killEach_induct hkill c (holds.lock c) ids hw)

end Induction

section Culled

variable (hobs : obs.Passive)

include hobs

private theorem culled_killHeld_trans (r : Registry) (holds : Holds) (c : ContainerRef) (id : Uuid)
    (w : World χ) (hw : Culled r w.registry) : Culled r (killHeld obs holds c id w).2.registry :=
  hw.trans (killing_killHeld holds hobs c id w).culled

theorem culled_killEach (c : ContainerRef) (holds : Holds) (ids : List Uuid) (w : World χ) :
    Culled w.registry (killEach obs c holds ids w).2.registry :=
  killEach_induct (culled_killHeld_trans hobs w.registry) c holds ids .refl

theorem culled_shutDownEach (victims : List EntityRef) (w : World χ) :
    Culled w.registry (shutDownEach obs holds victims w).registry :=
  shutDownEach_induct holds (culled_killHeld_trans hobs w.registry)
    (fun e _ hv => hv.tail (.close e)) victims .refl

theorem culled_kill (c : ContainerRef) (id : Uuid) (w : World χ) :
    Culled w.registry (kill obs holds c id w).2.registry :=
  kill_induct holds (culled_killHeld_trans hobs w.registry) (fun e _ hv => hv.tail (.close e))
    c id .refl

theorem culled_killListed (c : ContainerRef) (ids : List Uuid) (w : World χ) :
    Culled w.registry (killListed obs holds c ids w).2.registry :=
  killListed_induct holds (culled_killHeld_trans hobs w.registry)
    (fun e _ hv => hv.tail (.close e)) c ids .refl

end Culled

/-! ## Moving -/

/-- How an arrival can end: it is refused, or the entity is in, also where a listener fails. -/
inductive Receiving (obs : Observers χ) (w : World χ) (c : ContainerRef) (e : EntityRef) :
    Except ContainerError Bool → World χ → Prop
  | self (h : w.registry.idOf e = w.registry.containerId c) :
      Receiving obs w c e (.error (.selfTransfer (w.registry.idOf e))) w
  | dropped (other : w.registry.idOf e ≠ w.registry.containerId c)
      (h : w.registry.delegateOf c ≠ c) :
      Receiving obs w c e (.error (.delegateDropped (w.registry.containerId c))) w
  | refused (h : w.registry.receive c (w.registry.delegateOf c) e = none) :
      Receiving obs w c e (.ok false) w
  | entered {arrival : Arrival} {s : Registry} {w' : World χ}
      {answer : Except ContainerError Bool}
      (h : w.registry.receive c (w.registry.delegateOf c) e = some (arrival, s))
      (same : SameForest s w'.registry)
      (told : answer = .ok true ∨ ∃ failure, answer = .error (.listener failure))
      (accepted : obs.Accepting → answer = .ok true) : Receiving obs w c e answer w'

theorem receiving_receive (hobs : obs.Passive) (c : ContainerRef) (e : EntityRef) (w : World χ) :
    Receiving obs w c e (receive obs holds c e w).1 (receive obs holds c e w).2 := by
  unfold receive
  simp only
  split
  · rename_i hself
    exact .self hself
  rename_i hother
  rcases delegate_eq (holds.keepEntities [e]) obs c w with h | ⟨hne, h⟩
  swap
  · rw [h]
    exact .dropped hother hne
  rw [h]
  simp only
  cases hreceive : w.registry.receive c (w.registry.delegateOf c) e with
  | none => exact .refused hreceive
  | some entered =>
    obtain ⟨arrival, s⟩ := entered
    cases arrival with
    | taken => exact .entered hreceive (.refl s) (.inl rfl) fun _ => rfl
    | imported =>
      simp only
      have hheard := heard_announce ((holds.keepEntities [e]).lock c) obs c
        ⟨.received, w.registry.delegateOf c, e, none⟩ { w with registry := s }
      have hsame := sameForest_announce ((holds.keepEntities [e]).lock c) hobs c
        ⟨.received, w.registry.delegateOf c, e, none⟩ { w with registry := s }
      split
      · rename_i w' heq
        rw [heq] at hsame
        exact .entered hreceive hsame (.inl rfl) fun _ => rfl
      · rename_i failure w' heq
        rw [heq] at hheard hsame
        refine .entered hreceive hsame (.inr ?_) fun haccept => ?_
        · rcases hheard.ok_or with h | ⟨failure', h⟩
          · cases h
          · cases h
            exact ⟨failure', rfl⟩
        · cases hheard.ok_of_accepting haccept

/-- An entity that is not let in leaves all as it is, and one that enters as a whole subtree is
announced. -/
theorem receive_induct {P : World χ → Prop} {c : ContainerRef} {e : EntityRef} {w : World χ}
    (hw : P w)
    (htaken : ∀ delegate s, w.registry.receive c delegate e = some (.taken, s) →
      P { w with registry := s })
    (htold : ∀ delegate s, w.registry.receive c delegate e = some (.imported, s) →
      P (announce obs ((holds.keepEntities [e]).lock c) c ⟨.received, delegate, e, none⟩
        { w with registry := s }).2) :
    P (receive obs holds c e w).2 := by
  unfold receive
  simp only
  split
  · exact hw
  cases delegate obs (holds.keepEntities [e]) c w with
  | error refusal => exact hw
  | ok delegate =>
    simp only
    cases hreceive : w.registry.receive c delegate e with
    | none => exact hw
    | some entered =>
      obtain ⟨arrival, s⟩ := entered
      cases arrival with
      | taken => exact htaken delegate s hreceive
      | imported =>
        have hlast := htold delegate s hreceive
        simp only
        split
        all_goals
          rename_i heq
          rw [heq] at hlast
          exact hlast

/-- The checks that come before a transfer touches anything. -/
structure Ready (r : Registry) (src : ContainerRef) (id : Uuid) (dst : ContainerRef)
    (e : EntityRef) : Prop where
  apart : r.containerId dst ≠ r.containerId src
  isOpen : r.isClosed dst = false
  found : r.Held src id e
  other : r.idOf e ≠ r.containerId dst

theorem Ready.ne {r : Registry} {src dst : ContainerRef} {id : Uuid} {e : EntityRef}
    (ready : Ready r src id dst e) : src ≠ dst := by
  rintro rfl
  exact ready.apart rfl

/-- The entity that the checks have found is the only one. -/
theorem Ready.unique {r : Registry} {src dst : ContainerRef} {id : Uuid} {e x : EntityRef}
    (ready : Ready r src id dst e) (hx : r.Held src id x) : x = e :=
  Option.some.inj (hx.symm.trans ready.found)

/-- Whether the factory of the source takes both ends for containers of one tree. -/
def looksLocal (r : Registry) (src dst : ContainerRef) : Bool :=
  r.sameTree (r.bound src) (r.delegateOf src) dst

/-- What a transfer offers to its destination: between trees the entity has been released. -/
def offered (r : Registry) (src dst : ContainerRef) (e : EntityRef) : Registry :=
  if looksLocal r src dst then r else r.release (r.bound src) e

/-- How a transfer can end: at a check, at the destination, or with the entity moved, also where a
listener fails. Where the destination refuses, a released entity is stranded. -/
inductive Transferring (obs : Observers χ) (w : World χ) (src : ContainerRef) (id : Uuid)
    (dst : ContainerRef) : Except ContainerError Bool → World χ → Prop
  | sameContainer (h : w.registry.containerId dst = w.registry.containerId src) :
      Transferring obs w src id dst (.error (.sameContainer id (w.registry.containerId src))) w
  | closed (apart : w.registry.containerId dst ≠ w.registry.containerId src)
      (h : w.registry.isClosed dst = true) : Transferring obs w src id dst (.ok false) w
  | absent (apart : w.registry.containerId dst ≠ w.registry.containerId src)
      (isOpen : w.registry.isClosed dst = false) (h : id ∉ w.registry.held src) :
      Transferring obs w src id dst (.ok false) w
  | self {e : EntityRef} (apart : w.registry.containerId dst ≠ w.registry.containerId src)
      (isOpen : w.registry.isClosed dst = false) (found : w.registry.Held src id e)
      (h : w.registry.idOf e = w.registry.containerId dst) :
      Transferring obs w src id dst (.error (.selfTransfer id)) w
  | dropped {e : EntityRef} (ready : Ready w.registry src id dst e)
      (h : w.registry.delegateOf src ≠ src) :
      Transferring obs w src id dst (.error (.delegateDropped (w.registry.containerId src))) w
  | refused {e : EntityRef} {answer : Except ContainerError Bool}
      (ready : Ready w.registry src id dst e) (isLocal : looksLocal w.registry src dst = true)
      (h : w.registry.receive dst (w.registry.delegateOf dst) e = none ∧ answer = .ok false ∨
        w.registry.delegateOf dst ≠ dst ∧
          answer = .error (.delegateDropped (w.registry.containerId dst))) :
      Transferring obs w src id dst answer w
  | stranded {e : EntityRef} (ready : Ready w.registry src id dst e)
      (leaves : looksLocal w.registry src dst = false)
      (h : (offered w.registry src dst e).receive dst (w.registry.delegateOf dst) e = none ∨
        w.registry.delegateOf dst ≠ dst) :
      Transferring obs w src id dst (.error (.exportedNotTransferred id))
        { w with registry := offered w.registry src dst e }
  | moved {e : EntityRef} {arrival : Arrival} {s : Registry} {w' : World χ}
      {answer : Except ContainerError Bool} (ready : Ready w.registry src id dst e)
      (received : (offered w.registry src dst e).receive dst (w.registry.delegateOf dst) e =
        some (arrival, s))
      (same : SameForest (s.setHeld src ((s.held src).erase id)) w'.registry)
      (told : answer = .ok true ∨ ∃ failure, answer = .error (.listener failure))
      (accepted : obs.Accepting → answer = .ok true) :
      Transferring obs w src id dst answer w'

section Offered

variable {r : Registry} {src dst : ContainerRef} (e : EntityRef)

theorem offered_of_local (h : looksLocal r src dst = true) : offered r src dst e = r := by
  rw [offered, if_pos h]

theorem offered_of_leaves (h : looksLocal r src dst = false) :
    offered r src dst e = r.release (r.bound src) e := by
  rw [offered, h]
  rfl

theorem released_offered (h : looksLocal r src dst = false) :
    r.Released (r.bound src) e (offered r src dst e) := by
  rw [offered_of_leaves e h]
  exact Registry.released_release r _ e

/-- Whatever is offered, the containers are as before. -/
theorem container_offered (c : ContainerRef) :
    (offered r src dst e).container c = r.container c := by
  cases h : looksLocal r src dst with
  | true => rw [offered_of_local e h]
  | false => exact (released_offered e h).container c

theorem held_offered (c : ContainerRef) : (offered r src dst e).held c = r.held c :=
  congrArg Container.entities (container_offered e c)

theorem audience_offered (c : ContainerRef) :
    (offered r src dst e).audience c = r.audience c :=
  congrArg (fun x => x.listeners.members) (container_offered e c)

theorem containerId_offered (c : ContainerRef) :
    (offered r src dst e).containerId c = r.containerId c :=
  congrArg Container.id (container_offered e c)

theorem delegateOf_offered (c : ContainerRef) :
    (offered r src dst e).delegateOf c = r.delegateOf c :=
  congrArg Container.delegate (container_offered e c)

theorem idOf_offered (x : EntityRef) : (offered r src dst e).idOf x = r.idOf x := by
  cases h : looksLocal r src dst with
  | true => rw [offered_of_local e h]
  | false => exact (released_offered e h).idOf x

end Offered

/-- A transfer hands the destination what it offers. -/
theorem offering (w : World χ) (src dst : ContainerRef) (e : EntityRef) :
    (if (!looksLocal w.registry src dst) = true then
        { w with registry := w.registry.release (w.registry.container src).factory e }
      else w) = { w with registry := offered w.registry src dst e } := by
  rw [offered]
  cases looksLocal w.registry src dst <;> rfl

/-- The end of a transfer, once the destination has answered. -/
def settle (obs : Observers χ) (src dst delegate : ContainerRef) (id : Uuid) (e : EntityRef)
    (leaves : Bool) : Except ContainerError Bool × World χ → Except ContainerError Bool × World χ
  | (.ok true, w) => depart obs holds src dst delegate id e (.ok ()) w
  | (.error (.listener failure), w) =>
    depart obs holds src dst delegate id e (.error (.listener failure)) w
  | (.ok false, w) => (if leaves then .error (.exportedNotTransferred id) else .ok false, w)
  | (.error refusal, w) => (.error (if leaves then .exportedNotTransferred id else refusal), w)

/-- What the destination leaves behind stays, but for the departure of an entity that has moved. -/
theorem settle_induct {P : World χ → Prop} {src dst delegate : ContainerRef} {id : Uuid}
    {e : EntityRef} {leaves : Bool} {x : Except ContainerError Bool × World χ} (hx : P x.2)
    (hdepart : ∀ arrival, P (depart obs holds src dst delegate id e arrival x.2).2) :
    P (settle holds obs src dst delegate id e leaves x).2 := by
  unfold settle
  split
  · exact hdepart _
  · exact hdepart _
  · exact hx
  · exact hx

/-- How far a transfer gets: it ends at a check, or the entity is handed to the destination. -/
inductive Transit (obs : Observers χ) (w : World χ) (src : ContainerRef) (id : Uuid)
    (dst : ContainerRef) : Except ContainerError Bool × World χ → Prop
  | sameContainer (h : w.registry.containerId dst = w.registry.containerId src) :
      Transit obs w src id dst (.error (.sameContainer id (w.registry.containerId src)), w)
  | closed (apart : w.registry.containerId dst ≠ w.registry.containerId src)
      (h : w.registry.isClosed dst = true) : Transit obs w src id dst (.ok false, w)
  | absent (apart : w.registry.containerId dst ≠ w.registry.containerId src)
      (isOpen : w.registry.isClosed dst = false) (h : id ∉ w.registry.held src) :
      Transit obs w src id dst (.ok false, w)
  | self {e : EntityRef} (apart : w.registry.containerId dst ≠ w.registry.containerId src)
      (isOpen : w.registry.isClosed dst = false) (found : w.registry.Held src id e)
      (h : w.registry.idOf e = w.registry.containerId dst) :
      Transit obs w src id dst (.error (.selfTransfer id), w)
  | dropped {e : EntityRef} (ready : Ready w.registry src id dst e)
      (gone : delegate obs (holds.moving src dst e) src w =
        .error (.delegateDropped (w.registry.containerId src)))
      (h : w.registry.delegateOf src ≠ src) :
      Transit obs w src id dst (.error (.delegateDropped (w.registry.containerId src)), w)
  | handed {e : EntityRef} (ready : Ready w.registry src id dst e)
      (found : delegate obs (holds.moving src dst e) src w = .ok (w.registry.delegateOf src)) :
      Transit obs w src id dst
        (settle (holds.handing w.registry src dst e) obs src dst (w.registry.delegateOf src) id e
          (!looksLocal w.registry src dst)
          (receive obs (holds.handing w.registry src dst e) dst e
            { w with registry := offered w.registry src dst e }))

theorem transit_transfer (obs : Observers χ) (src : ContainerRef) (id : Uuid) (dst : ContainerRef)
    (w : World χ) : Transit holds obs w src id dst (transfer obs holds src id dst w) := by
  unfold transfer
  simp only
  split
  · rename_i hsame
    exact .sameContainer hsame
  rename_i hapart
  split
  · rename_i hclosed
    exact .closed hapart hclosed
  rename_i hopen
  rw [Bool.not_eq_true] at hopen
  split
  · rename_i hnone
    exact .absent hapart hopen (Table.find?_eq_none_iff.1 hnone)
  rename_i e hfound
  split
  · rename_i hself
    exact .self hapart hopen hfound hself
  rename_i hother
  have hready : Ready w.registry src id dst e := ⟨hapart, hopen, hfound, hother⟩
  have hmoving : (((holds.gate src).gate dst).lock src).keepEntities [e] = holds.moving src dst e :=
    rfl
  rw [hmoving]
  rcases delegate_eq (holds.moving src dst e) obs src w with h | ⟨hne, h⟩
  · have hhanding : (holds.moving src dst e).keep [w.registry.delegateOf src] =
        holds.handing w.registry src dst e := rfl
    have hlooks : w.registry.sameTree (w.registry.container src).factory
        (w.registry.delegateOf src) dst = looksLocal w.registry src dst := rfl
    have hhanded : Transit holds obs w src id dst _ := .handed hready h
    rw [h]
    simp only
    rw [hlooks, offering, hhanding]
    generalize receive obs (holds.handing w.registry src dst e) dst e
      { w with registry := offered w.registry src dst e } = arrived at hhanded ⊢
    obtain ⟨answer, v⟩ := arrived
    cases answer with
    | ok came => cases came <;> exact hhanded
    | error refusal => cases refusal <;> exact hhanded
  · rw [h]
    exact .dropped hready h hne

/-- Once all checks are passed, the entity is handed over. -/
theorem transfer_of_found {src dst : ContainerRef} {id : Uuid} {e : EntityRef} {w : World χ}
    (ready : Ready w.registry src id dst e)
    (found : delegate obs (holds.moving src dst e) src w = .ok (w.registry.delegateOf src)) :
    transfer obs holds src id dst w =
      settle (holds.handing w.registry src dst e) obs src dst (w.registry.delegateOf src) id e
        (!looksLocal w.registry src dst)
        (receive obs (holds.handing w.registry src dst e) dst e
          { w with registry := offered w.registry src dst e }) := by
  have htransit := transit_transfer holds obs src id dst w
  generalize transfer obs holds src id dst w = outcome at htransit
  cases htransit with
  | sameContainer h => exact absurd h ready.apart
  | closed _ h =>
    rw [ready.isOpen] at h
    cases h
  | absent _ _ h => exact absurd (Registry.mem_held_iff.2 ⟨e, ready.found⟩) h
  | self _ _ hfound h =>
    obtain rfl := ready.unique hfound
    exact absurd h ready.other
  | dropped ready' gone =>
    obtain rfl := ready.unique ready'.found
    cases gone.symm.trans found
  | handed ready' =>
    obtain rfl := ready.unique ready'.found
    rfl

theorem sameForest_depart (hobs : obs.Passive) (src dst delegate : ContainerRef) (id : Uuid)
    (e : EntityRef) (arrival : Except ContainerError Unit) (w : World χ) :
    SameForest (w.registry.setHeld src ((w.registry.held src).erase id))
      (depart obs holds src dst delegate id e arrival w).2.registry :=
  sameForest_announce holds hobs src _ { w with registry := w.registry.setHeld src _ }

/-- A departure succeeds with the arrival unless a listener fails. -/
theorem heard_depart (obs : Observers χ) (src dst delegate : ContainerRef) (id : Uuid)
    (e : EntityRef) (arrival : Except ContainerError Unit) (w : World χ) :
    ∃ answer, Heard obs answer ∧
      (depart obs holds src dst delegate id e arrival w).1 =
        (arrival.bind fun _ => answer).map fun _ => true :=
  ⟨_, heard_announce holds obs src _ { w with registry := w.registry.setHeld src _ }, rfl⟩

/-- Leaving the source does not depend on what listeners did at the destination. -/
theorem sameForest_leave {r s : Registry} (h : SameForest r s) (src : ContainerRef) (id : Uuid) :
    SameForest (r.setHeld src ((r.held src).erase id)) (s.setHeld src ((s.held src).erase id)) where
  exists_iff c := by
    cases src with
    | ofEntity x =>
      cases c with
      | standalone j => exact h.exists_iff (.standalone j)
      | ofEntity y => exact h.exists_iff (.ofEntity y)
    | standalone i =>
      cases c with
      | ofEntity y => exact h.exists_iff (.ofEntity y)
      | standalone j =>
        have hsize : j < s.containers.size ↔ j < r.containers.size := h.exists_iff (.standalone j)
        change j < (s.containers.set i _).size ↔ j < (r.containers.set i _).size
        rw [Store.size_set, Store.size_set, lt_max_iff, lt_max_iff, hsize]
  held c := by simp only [Registry.held_setHeld, h.held]
  containerId c := by simp only [Registry.containerId_setHeld, h.containerId]
  delegateOf c := by simp only [Registry.delegateOf_setHeld, h.delegateOf]
  bound c := by simp only [Registry.bound_setHeld, h.bound]
  isClosed c := by simp only [Registry.isClosed_setHeld, h.isClosed]
  owners f := by simp only [Registry.owners_setHeld, h.owners]
  config f := by simp only [Registry.config_setHeld, h.config]
  idOf x := by simp only [Registry.idOf_setHeld, h.idOf]
  lifecycle x := by simp only [Registry.lifecycle_setHeld, h.lifecycle]

section Answer

variable {w : World χ} {src dst : ContainerRef} {id : Uuid} {e : EntityRef}
  (ready : Ready w.registry src id dst e)

include ready

/-- The destination refuses the entity. -/
theorem transferring_of_none
    (hnone : (offered w.registry src dst e).receive dst (w.registry.delegateOf dst) e = none) :
    Transferring obs w src id dst
      (if (!looksLocal w.registry src dst) = true then .error (.exportedNotTransferred id)
        else .ok false)
      { w with registry := offered w.registry src dst e } := by
  cases hlocal : looksLocal w.registry src dst with
  | true =>
    rw [offered_of_local e hlocal] at hnone ⊢
    exact .refused ready hlocal (.inl ⟨hnone, rfl⟩)
  | false => exact .stranded ready hlocal (.inl hnone)

/-- The delegate of the destination is gone. -/
theorem transferring_of_dropped (hne : w.registry.delegateOf dst ≠ dst) :
    Transferring obs w src id dst
      (.error (if (!looksLocal w.registry src dst) = true then .exportedNotTransferred id
        else .delegateDropped (w.registry.containerId dst)))
      { w with registry := offered w.registry src dst e } := by
  cases hlocal : looksLocal w.registry src dst with
  | true =>
    rw [offered_of_local e hlocal]
    exact .refused ready hlocal (.inr ⟨hne, rfl⟩)
  | false => exact .stranded ready hlocal (.inr hne)

/-- The destination has the entity, and the source lets go of it. -/
theorem transferring_of_some (hobs : obs.Passive) (delegate : ContainerRef) {arrival : Arrival}
    {s : Registry} {w' : World χ} {answer : Except ContainerError Unit}
    (hentered : (offered w.registry src dst e).receive dst (w.registry.delegateOf dst) e =
      some (arrival, s))
    (hsame : SameForest s w'.registry)
    (htold : answer = .ok () ∨ ∃ failure, answer = .error (.listener failure))
    (haccepted : obs.Accepting → answer = .ok ()) :
    Transferring obs w src id dst (depart obs holds src dst delegate id e answer w').1
      (depart obs holds src dst delegate id e answer w').2 := by
  obtain ⟨outcome, hheard, hanswer⟩ := heard_depart holds obs src dst delegate id e answer w'
  refine .moved ready hentered
    ((sameForest_leave hsame src id).trans (sameForest_depart _ hobs ..)) ?_ ?_
  · rw [hanswer]
    rcases htold with rfl | ⟨failure, rfl⟩
    · rcases hheard.ok_or with rfl | ⟨failure, rfl⟩
      · exact .inl rfl
      · exact .inr ⟨failure, rfl⟩
    · exact .inr ⟨failure, rfl⟩
  · intro haccept
    rw [hanswer, haccepted haccept, hheard.ok_of_accepting haccept]
    rfl

end Answer

theorem transferring_transfer (hobs : obs.Passive) (src : ContainerRef) (id : Uuid)
    (dst : ContainerRef) (w : World χ) :
    Transferring obs w src id dst (transfer obs holds src id dst w).1
      (transfer obs holds src id dst w).2 := by
  have htransit := transit_transfer holds obs src id dst w
  generalize transfer obs holds src id dst w = outcome at htransit
  cases htransit with
  | sameContainer h => exact .sameContainer h
  | closed apart h => exact .closed apart h
  | absent apart isOpen h => exact .absent apart isOpen h
  | self apart isOpen found h => exact .self apart isOpen found h
  | dropped ready _ h => exact .dropped ready h
  | @handed e ready =>
    have hreceive := receiving_receive (holds.handing w.registry src dst e) hobs dst e
      { w with registry := offered w.registry src dst e }
    have hdelegate : (offered w.registry src dst e).delegateOf dst = w.registry.delegateOf dst :=
      delegateOf_offered e dst
    unfold settle
    split
    · rename_i w' heq
      rw [heq] at hreceive
      cases hreceive with
      | entered hentered hsame _ _ =>
        rw [hdelegate] at hentered
        exact transferring_of_some _ ready hobs _ hentered hsame (.inl rfl) fun _ => rfl
    · rename_i failure w' heq
      rw [heq] at hreceive
      cases hreceive with
      | entered hentered hsame _ haccepted =>
        rw [hdelegate] at hentered
        exact transferring_of_some _ ready hobs _ hentered hsame (.inr ⟨failure, rfl⟩)
          fun haccept => by cases haccepted haccept
    · rename_i w' heq
      rw [heq] at hreceive
      cases hreceive with
      | refused hnone => exact transferring_of_none ready (hdelegate ▸ hnone)
      | entered _ _ htold _ => rcases htold with h | ⟨failure, h⟩ <;> cases h
    · rename_i refusal w' hlistener heq
      rw [heq] at hreceive
      generalize hoffered : offered w.registry src dst e = r at hreceive hdelegate
      change Receiving obs { w with registry := r } dst e (.error refusal) w' at hreceive
      cases hreceive with
      | self hself =>
        rw [← hoffered, idOf_offered, containerId_offered] at hself
        exact absurd hself ready.other
      | dropped _ hne =>
        rw [← hoffered, containerId_offered]
        exact transferring_of_dropped ready (hdelegate ▸ hne)
      | entered _ _ htold _ =>
        rcases htold with h | ⟨failure, h⟩
        · cases h
        · cases h
          exact absurd rfl (hlistener failure)

/-- How an entity passes from one container to another: as a move inside the tree, as an import of
an entity that was exported before, or as an import after its release. -/
inductive Passage (r : Registry) (src : ContainerRef) (id : Uuid) (dst : ContainerRef)
    (e : EntityRef) (s : Registry) : Prop
  | taken (isLocal : looksLocal r src dst = true) (taken : r.Taken src id dst e s)
  | adopted (isLocal : looksLocal r src dst = true) (imported : r.Imported src id dst e s)
  | imported (leaves : looksLocal r src dst = false)
      (imported : (r.release (r.bound src) e).Imported src id dst e s)

/-- An entity that has been released is not alive, so it is never moved as inside a tree. -/
theorem passage_of_receive {r s : Registry} {src dst : ContainerRef} {id : Uuid} {e : EntityRef}
    {arrival : Arrival} (ready : Ready r src id dst e)
    (h : (offered r src dst e).receive dst (r.delegateOf dst) e = some (arrival, s)) :
    Passage r src id dst e (s.setHeld src ((s.held src).erase id)) := by
  have hne := ready.ne
  cases hlocal : looksLocal r src dst with
  | true =>
    rw [offered_of_local e hlocal] at h
    cases arrival with
    | taken => exact .taken hlocal (Registry.taken_of_receive id hne h)
    | imported => exact .adopted hlocal (Registry.imported_of_receive id hne h)
  | false =>
    have hrel := Registry.released_release r (r.bound src) e
    rw [offered_of_leaves e hlocal, ← hrel.delegateOf] at h
    cases arrival with
    | imported => exact .imported hlocal (Registry.imported_of_receive id hne h)
    | taken =>
      have htaken := Registry.taken_of_receive id hne h
      obtain ⟨_, -, halive, -⟩ := Registry.mayRelocate_iff.1 htaken.may
      by_cases hbefore : r.lifecycle e = .alive
      · rw [hrel.lifecycle_of_alive hbefore] at halive
        cases halive
      · rw [hrel.lifecycle_of_not_alive hbefore] at halive
        exact absurd halive hbefore

namespace Passage

variable {r s : Registry} {src dst : ContainerRef} {id : Uuid} {e : EntityRef}
  (h : Passage r src id dst e s) (hr : r.Sound) (ready : Ready r src id dst e)

include h hr ready

/-- The entity was not at its destination and is there now. -/
theorem arrives : id ∉ r.held dst ∧ id ∈ s.held dst := by
  have hne := ready.ne
  have he := ready.found
  cases h with
  | taken _ taken =>
    exact ⟨hr.keyed he ▸ taken.absent, Registry.mem_held_iff.2
      ⟨e, (taken.toMoved.held_iff hr he hne).2 (.inl ⟨rfl, rfl, rfl⟩)⟩⟩
  | adopted _ imported =>
    exact ⟨hr.keyed he ▸ imported.absent, Registry.mem_held_iff.2
      ⟨e, (imported.toMoved.held_iff hr he hne).2 (.inl ⟨rfl, rfl, rfl⟩)⟩⟩
  | imported _ imported =>
    have released := Registry.released_release r (r.bound src) e
    have ht := released.sound hr (hr.placed _ _ _ he).2
    have he' := released.held_iff.2 he
    refine ⟨?_, Registry.mem_held_iff.2
      ⟨e, (imported.toMoved.held_iff ht he' hne).2 (.inl ⟨rfl, rfl, rfl⟩)⟩⟩
    rw [← hr.keyed he, ← released.idOf, ← released.held]
    exact imported.absent

theorem sameNames (hdst : r.Exists dst) : Registry.SameNames r s := by
  have he := ready.found
  have hexists := (hr.placed _ _ _ he).2
  cases h with
  | taken _ taken => exact taken.toMoved.sameNames hr he hdst
  | adopted _ imported => exact imported.toMoved.sameNames hr he hdst
  | imported _ imported =>
    have released := Registry.released_release r (r.bound src) e
    have ht := released.sound hr hexists
    have hdst' := (released.exists_iff hexists dst).2 hdst
    exact (released.sameNames hexists).trans
      (imported.toMoved.sameNames ht (released.held_iff.2 he) hdst')

end Passage

end World

end EntityForest
