import EntityForest.Attribute.Plain
import EntityForest.Bus
import EntityForest.Proofs.BagDeeds
import EntityForest.Proofs.Keeping
import EntityForest.Script.Reaction
import EntityForest.World.Build
import Mathlib.Data.List.Infix

/-! # Accounts of buses

A log of what is done with a bus, and of the answers, tells all there is to know of the bus. However
senders and receivers take turns, and wherever in the operations of a forest events are fired, what
has been received and what still waits are the events that were appended, in this order. All that is
assumed of channels is that they work like queues. -/

namespace EntityForest

open World
open Relation (ReflTransGen)

/-! ## Logs -/

/-- What is done with a bus, with the answer. An event is fired at a sender, a receiver takes one
event or all of them or counts them, and handles that receive events are added and dropped. -/
inductive BusLine where
  | fired (sender : ListenerRef) (event : Event) (entity : String)
      (answer : Except ListenerError Unit)
  | took (receiver : Nat) (event : Option Event)
  | drained (receiver : Nat) (events : List Event)
  | counted (receiver count : Nat) (any : Bool)
  | joined
  | left

namespace BusLine

/-- This is done with a bus, and leaves another one. -/
def Does {κ : Type} (ch : Channel κ Event) (b : κ) (line : BusLine) (b' : κ) : Prop :=
  match line with
  | fired _ event entity answer =>
    ∃ idText, idText event.entity = entity ∧ LifecycleBus.send ch idText event b = (answer, b')
  | took _ event => LifecycleBus.tryRecv ch b = (event, b')
  | drained _ events => LifecycleBus.drain ch b = (events, b')
  | counted _ count any =>
    LifecycleBus.pendingCount ch b = count ∧ LifecycleBus.hasEvents ch b = any ∧ b' = b
  | joined => LifecycleBus.receiver ch b = b'
  | left => LifecycleBus.dropReceiver ch b = b'

/-- All but firing takes a handle that receives events. -/
def Possible (receivers : Nat) : BusLine → Prop
  | fired .. => True
  | _ => receivers ≠ 0

/-- How many handles receive events afterwards. -/
def receivers (before : Nat) : BusLine → Nat
  | joined => before + 1
  | left => before - 1
  | _ => before

/-- An event that is fired and not rejected is appended, if there are handles to receive it. -/
def appended (receivers : Nat) : BusLine → List Event
  | fired _ event _ (.ok ()) => if receivers = 0 then [] else [event]
  | _ => []

def taken : BusLine → List Event
  | took _ event => event.toList
  | drained _ events => events
  | _ => []

end BusLine

/-! What a log tells of a bus. In the beginning one handle receives events. -/

def receiversAfter (lines : List BusLine) : Nat := lines.foldl BusLine.receivers 1

def appendedFrom : Nat → List BusLine → List Event
  | _, [] => []
  | receivers, line :: lines =>
    line.appended receivers ++ appendedFrom (line.receivers receivers) lines

def appendedIn (lines : List BusLine) : List Event := appendedFrom 1 lines

def takenIn (lines : List BusLine) : List Event := lines.flatMap BusLine.taken

/-- The events that have been appended and not taken yet. -/
def waitingAfter (lines : List BusLine) : List Event :=
  (appendedIn lines).drop (takenIn lines).length

theorem receiversAfter_concat (lines : List BusLine) (line : BusLine) :
    receiversAfter (lines ++ [line]) = line.receivers (receiversAfter lines) :=
  List.foldl_concat _ _ _ _

theorem appendedIn_concat (lines : List BusLine) (line : BusLine) :
    appendedIn (lines ++ [line]) = appendedIn lines ++ line.appended (receiversAfter lines) := by
  rw [appendedIn, appendedIn, receiversAfter]
  generalize 1 = receivers
  induction lines generalizing receivers with
  | nil => exact List.append_nil _
  | cons first lines ih =>
    rw [List.cons_append, appendedFrom, ih, appendedFrom, List.append_assoc]
    rfl

theorem takenIn_concat (lines : List BusLine) (line : BusLine) :
    takenIn (lines ++ [line]) = takenIn lines ++ line.taken := by
  simp [takenIn]

/-! ## What a log shows -/

/-- What becomes of an event that is fired while these events wait: what the sender answers, and
what is appended. -/
inductive BusFate (capacity receivers : Nat) (waiting : List Event) (event : Event)
    (entity : String) : Except ListenerError Unit → List Event → Prop
  | appended (inUse : receivers ≠ 0) (room : waiting.length < capacity) :
      BusFate capacity receivers waiting event entity (.ok ()) [event]
  | dropped (inUse : receivers ≠ 0) (full : waiting.length = capacity) :
      BusFate capacity receivers waiting event entity
        (.error ⟨LifecycleBus.fullMessage entity, none⟩) []
  | ignored (gone : receivers = 0) : BusFate capacity receivers waiting event entity (.ok ()) []

/-- A line is true if its answer is the one of a queue with this capacity in which these events
wait. -/
def BusLine.IsTrue (capacity receivers : Nat) (waiting : List Event) : BusLine → Prop
  | fired sender event entity answer =>
    BusFate capacity receivers waiting event entity answer
      ((fired sender event entity answer).appended receivers)
  | took _ event => receivers ≠ 0 ∧ event = waiting.head?
  | drained _ events => receivers ≠ 0 ∧ events = waiting
  | counted _ count any => receivers ≠ 0 ∧ count = waiting.length ∧ (any = true ↔ waiting ≠ [])
  | joined | left => receivers ≠ 0

/-- The log is true line by line. Throughout, what has been taken and what still waits are what has
been appended, in this order, and no more events wait than there is room for. -/
structure BusAccount (capacity : Nat) (lines : List BusLine) : Prop where
  lines_true : ∀ earlier line, earlier ++ [line] <+: lines →
    line.IsTrue capacity (receiversAfter earlier) (waitingAfter earlier)
  ledger : ∀ earlier, earlier <+: lines →
    takenIn earlier ++ waitingAfter earlier = appendedIn earlier
  bounded : ∀ earlier, earlier <+: lines → (waitingAfter earlier).length ≤ capacity

/-! ## One line after the other -/

theorem BusFate.appended_eq {capacity receivers : Nat} {waiting appended : List Event}
    {event : Event} {entity : String} {answer : Except ListenerError Unit}
    (h : BusFate capacity receivers waiting event entity answer appended) (sender : ListenerRef) :
    (BusLine.fired sender event entity answer).appended receivers = appended := by
  cases h with
  | appended inUse => exact if_neg inUse
  | dropped => rfl
  | ignored gone => exact if_pos gone

/-- A queue of this capacity in which these events wait. Without receivers it does not matter what
is left in it. -/
structure Queue.Stands (q : Queue Event) (capacity receivers : Nat) (waiting : List Event) :
    Prop where
  capacity_eq : q.capacity = capacity
  receivers_eq : q.receivers = receivers
  pending_eq : receivers ≠ 0 → q.pending = waiting
  bounded : waiting.length ≤ capacity

namespace Queue.Stands

variable {q : Queue Event} {capacity receivers : Nat} {waiting : List Event}

/-- As long as anybody can receive events, it is certain what the queue is. -/
theorem eq (h : q.Stands capacity receivers waiting) (inUse : receivers ≠ 0) :
    q = ⟨capacity, waiting, receivers⟩ :=
  Queue.ext h.capacity_eq (h.pending_eq inUse) h.receivers_eq

theorem of_eq (h : q = ⟨capacity, waiting, receivers⟩) (bounded : waiting.length ≤ capacity) :
    q.Stands capacity receivers waiting := by
  subst h
  exact ⟨rfl, rfl, fun _ => rfl, bounded⟩

end Queue.Stands

section

variable {κ : Type} {ch : Channel κ Event} {view : κ → Queue Event} (lawful : ch.Lawful view)
  {b b' : κ} {capacity receivers : Nat} {waiting : List Event}

namespace LifecycleBus

include lawful

theorem view_createPair (capacity : Nat) : view (createPair ch capacity) = ⟨capacity, [], 1⟩ := by
  have hnew : view (ch.bounded capacity) = ⟨capacity, [], 1⟩ := lawful.bounded capacity
  have hcloned : view (ch.cloneReceiver (ch.bounded capacity)) = ⟨capacity, [], 2⟩ := by
    rw [lawful.cloneReceiver (by rw [hnew]; exact Nat.one_ne_zero), hnew]
  obtain ⟨hcapacity, hreceivers, hpending⟩ := lawful.dropReceiver
    (k := ch.cloneReceiver (ch.bounded capacity)) (by rw [hcloned]; exact (Nat.succ_ne_zero 1))
  rw [hcloned] at hcapacity hreceivers hpending
  exact Queue.ext hcapacity (hpending (Nat.succ_ne_self 1)) hreceivers

/-- A sender appends an event, or refuses it since there is no room, or ignores it. -/
theorem exists_fate (h : (view b).Stands capacity receivers waiting) (idText : EntityRef → String)
    (event : Event) :
    ∃ appended,
      BusFate capacity receivers waiting event (idText event.entity) (send ch idText event b).1
          appended ∧
        (view (send ch idText event b).2).Stands capacity receivers (waiting ++ appended) := by
  unfold send
  by_cases hgone : receivers = 0
  · obtain ⟨houtcome, hcapacity, hreceivers⟩ :=
      lawful.trySend_disconnected (h.receivers_eq.trans hgone) event
    generalize ch.trySend event b = attempt at houtcome hcapacity hreceivers
    obtain ⟨_, after⟩ := attempt
    cases houtcome
    refine ⟨[], .ignored hgone, hcapacity.trans h.capacity_eq, hreceivers.trans hgone.symm,
      (absurd hgone ·), ?_⟩
    rw [List.append_nil]
    exact h.bounded
  have hview := h.eq hgone
  have hinUse : (view b).receivers ≠ 0 := by rwa [h.receivers_eq]
  by_cases hfull : capacity ≤ waiting.length
  · obtain ⟨houtcome, hkept⟩ := lawful.trySend_full hinUse (by rwa [hview]) event
    generalize ch.trySend event b = attempt at houtcome hkept
    obtain ⟨_, after⟩ := attempt
    cases houtcome
    refine ⟨[], .dropped hgone (le_antisymm h.bounded hfull), ?_⟩
    rw [List.append_nil]
    exact .of_eq (hkept.trans hview) h.bounded
  · have hroom := Nat.not_le.1 hfull
    obtain ⟨houtcome, hsent⟩ := lawful.trySend_sent hinUse (by rwa [hview]) event
    generalize ch.trySend event b = attempt at houtcome hsent
    obtain ⟨_, after⟩ := attempt
    cases houtcome
    rw [hview] at hsent
    refine ⟨[event], .appended hgone hroom, .of_eq hsent ?_⟩
    rw [List.length_append]
    exact hroom

/-- Receiving one event after the other gives all there are, the oldest first. -/
theorem drainFor_eq (hreceivers : (view b).receivers ≠ 0) {rounds : Nat}
    (henough : (view b).pending.length ≤ rounds) :
    (drainFor ch rounds b).1 = (view b).pending ∧
      view (drainFor ch rounds b).2 = { view b with pending := [] } := by
  induction rounds generalizing b with
  | zero =>
    have hnone : (view b).pending = [] := List.length_eq_zero_iff.1 (Nat.le_zero.1 henough)
    refine ⟨hnone.symm, ?_⟩
    rw [← hnone]
    rfl
  | succ rounds ih =>
    rw [drainFor]
    obtain ⟨hevent, hview⟩ := lawful.tryRecv hreceivers
    generalize ch.tryRecv b = received at hevent hview
    obtain ⟨event, after⟩ := received
    simp only at hevent hview
    cases hpending : (view b).pending with
    | nil =>
      rw [hpending] at hevent hview
      subst hevent
      exact ⟨rfl, hview⟩
    | cons first rest =>
      rw [hpending] at hevent hview henough
      subst hevent
      have hafter := ih (b := after) (by rw [hview]; exact hreceivers)
        (by rw [hview]; exact Nat.le_of_succ_le_succ henough)
      rw [hview] at hafter
      exact ⟨congrArg (first :: ·) hafter.1, hafter.2⟩

theorem drain_eq (hreceivers : (view b).receivers ≠ 0) :
    (drain ch b).1 = (view b).pending ∧ view (drain ch b).2 = { view b with pending := [] } := by
  refine drainFor_eq lawful hreceivers ?_
  rw [lawful.len hreceivers]
  exact Nat.le_succ _

end LifecycleBus

/-- What a line leaves of a bus: nothing is lost and nothing appears. -/
structure BusLine.Conserves (line : BusLine) (capacity receivers : Nat) (waiting : List Event)
    (after : Queue Event) (waiting' : List Event) : Prop where
  stands : after.Stands capacity (line.receivers receivers) waiting'
  events : line.taken ++ waiting' = waiting ++ line.appended receivers
  isTrue : line.IsTrue capacity receivers waiting

include lawful

theorem BusLine.Does.conserves {line : BusLine} (does : line.Does ch b b')
    (possible : line.Possible receivers) (h : (view b).Stands capacity receivers waiting) :
    ∃ waiting', line.Conserves capacity receivers waiting (view b') waiting' := by
  cases line with
  | fired sender event entity answer =>
    obtain ⟨idText, rfl, hsend⟩ := does
    obtain ⟨appended, hfate, hstands⟩ := LifecycleBus.exists_fate lawful h idText event
    rw [hsend] at hfate hstands
    refine ⟨waiting ++ appended, hstands, ?_, ?_⟩
    · rw [hfate.appended_eq]
      rfl
    · rw [IsTrue, hfate.appended_eq]
      exact hfate
  | took receiver event =>
    have hview := h.eq possible
    have htook := lawful.tryRecv (k := b) (by rwa [h.receivers_eq])
    rw [show ch.tryRecv b = (event, b') from does, hview] at htook
    obtain ⟨hevent, hafter⟩ := htook
    obtain rfl : event = waiting.head? := hevent
    refine ⟨waiting.tail, .of_eq hafter ?_, ?_, possible, rfl⟩
    · rw [List.length_tail]
      exact (Nat.sub_le _ _).trans h.bounded
    · change waiting.head?.toList ++ waiting.tail = waiting ++ []
      cases waiting <;> simp
  | drained receiver events =>
    have hview := h.eq possible
    have hdrained := LifecycleBus.drain_eq lawful (b := b) (by rwa [h.receivers_eq])
    rw [show LifecycleBus.drain ch b = (events, b') from does, hview] at hdrained
    obtain ⟨hevents, hafter⟩ := hdrained
    obtain rfl : events = waiting := hevents
    exact ⟨[], .of_eq hafter (Nat.zero_le _), rfl, possible, rfl⟩
  | counted receiver count any =>
    obtain ⟨hcount, hany, rfl⟩ := does
    have hview := h.eq possible
    have hinUse : (view b').receivers ≠ 0 := by rwa [h.receivers_eq]
    refine ⟨waiting, h, (List.append_nil _).symm, possible, ?_, ?_⟩
    · rw [← hcount, LifecycleBus.pendingCount, lawful.len hinUse, hview]
    · rw [← hany, LifecycleBus.hasEvents, Bool.not_eq_true', ← Bool.not_eq_true,
        lawful.isEmpty hinUse, hview]
  | joined =>
    obtain rfl : ch.cloneReceiver b = b' := does
    have hjoined := lawful.cloneReceiver (k := b) (by rwa [h.receivers_eq])
    rw [h.eq possible] at hjoined
    exact ⟨waiting, .of_eq hjoined h.bounded, (List.append_nil _).symm, possible⟩
  | left =>
    obtain rfl : ch.dropReceiver b = b' := does
    obtain ⟨hcapacity, hreceivers, hkept⟩ :=
      lawful.dropReceiver (k := b) (by rwa [h.receivers_eq])
    rw [h.eq possible] at hcapacity hreceivers hkept
    refine ⟨waiting, ⟨hcapacity, hreceivers, fun hmore => hkept fun hlast => ?_, h.bounded⟩,
      (List.append_nil _).symm, possible⟩
    exact hmore (congrArg (· - 1) hlast)

end

/-- These lines have been done with a bus, one after the other. -/
inductive BusUnderwent {κ : Type} (ch : Channel κ Event) (start : κ) : List BusLine → κ → Prop
  | nothing : BusUnderwent ch start [] start
  | concat {lines : List BusLine} {b b' : κ} {line : BusLine}
      (before : BusUnderwent ch start lines b) (possible : line.Possible (receiversAfter lines))
      (does : line.Does ch b b') : BusUnderwent ch start (lines ++ [line]) b'

/-- A queue is as a log tells. -/
structure Queue.Agrees (q : Queue Event) (capacity : Nat) (lines : List BusLine) : Prop where
  stands : q.Stands capacity (receiversAfter lines) (waitingAfter lines)
  ledger : takenIn lines ++ waitingAfter lines = appendedIn lines

namespace Queue.Agrees

variable {capacity : Nat} {lines : List BusLine}

theorem new (capacity : Nat) : (⟨capacity, [], 1⟩ : Queue Event).Agrees capacity [] :=
  ⟨⟨rfl, rfl, fun _ => rfl, Nat.zero_le _⟩, rfl⟩

theorem concat {q q' : Queue Event} (h : q.Agrees capacity lines) {line : BusLine}
    {waiting : List Event}
    (conserves : line.Conserves capacity (receiversAfter lines) (waitingAfter lines) q' waiting) :
    q'.Agrees capacity (lines ++ [line]) := by
  have hledger : takenIn (lines ++ [line]) ++ waiting = appendedIn (lines ++ [line]) := by
    rw [takenIn_concat, appendedIn_concat, List.append_assoc, conserves.events, ← h.ledger,
      List.append_assoc]
  have hwaiting : waitingAfter (lines ++ [line]) = waiting := by
    rw [waitingAfter, ← hledger, List.drop_left]
  constructor
  · rw [hwaiting, receiversAfter_concat]
    exact conserves.stands
  · rw [hwaiting]
    exact hledger

end Queue.Agrees

namespace BusUnderwent

variable {κ : Type} {ch : Channel κ Event} {start b : κ} {lines earlier : List BusLine}
  {line : BusLine}

theorem of_concat (h : BusUnderwent ch start (lines ++ [line]) b) :
    ∃ before, BusUnderwent ch start lines before ∧ line.Possible (receiversAfter lines) ∧
      line.Does ch before b := by
  generalize hall : lines ++ [line] = all at h
  cases h with
  | nothing => simp at hall
  | concat before possible does =>
    obtain ⟨rfl, hlast⟩ := List.append_inj' hall rfl
    obtain rfl := List.singleton_inj.1 hlast
    exact ⟨_, before, possible, does⟩

theorem of_prefix (h : BusUnderwent ch start lines b) (hearlier : earlier <+: lines) :
    ∃ before, BusUnderwent ch start earlier before := by
  induction h with
  | nothing =>
    obtain rfl := List.prefix_nil.1 hearlier
    exact ⟨start, .nothing⟩
  | concat before possible does ih =>
    rcases List.prefix_concat_iff.1 hearlier with rfl | hearlier
    · exact ⟨_, before.concat possible does⟩
    · exact ih hearlier

variable {view : κ → Queue Event} {capacity : Nat} (lawful : ch.Lawful view)
  (start_eq : view start = ⟨capacity, [], 1⟩)

include lawful start_eq

theorem agrees (h : BusUnderwent ch start lines b) : (view b).Agrees capacity lines := by
  induction h with
  | nothing =>
    rw [start_eq]
    exact .new capacity
  | concat _ possible does ih =>
    obtain ⟨_, hconserves⟩ := does.conserves lawful possible ih.stands
    exact ih.concat hconserves

theorem account (h : BusUnderwent ch start lines b) : BusAccount capacity lines := by
  refine ⟨fun earlier line hearlier => ?_, fun earlier hearlier => ?_, fun earlier hearlier => ?_⟩
  · obtain ⟨after, hafter⟩ := h.of_prefix hearlier
    obtain ⟨before, hbefore, possible, does⟩ := hafter.of_concat
    obtain ⟨_, hconserves⟩ :=
      does.conserves lawful possible (hbefore.agrees lawful start_eq).stands
    exact hconserves.isTrue
  · obtain ⟨before, hbefore⟩ := h.of_prefix hearlier
    exact (hbefore.agrees lawful start_eq).ledger
  · obtain ⟨before, hbefore⟩ := h.of_prefix hearlier
    exact (hbefore.agrees lawful start_eq).stands.bounded

end BusUnderwent

/-! ## Runs -/

section

/-- Where clients keep a bus and the log of it, and which of the listeners are its senders. -/
structure BusDesk (κ χ : Type) extends BusPlace κ χ where
  log : χ → List BusLine
  Sends : χ → ListenerRef → Prop

variable [ValueTypes] {κ χ : Type}

namespace BusDesk

variable (ch : Channel κ Event) (desk : BusDesk κ χ)

/-- Something is done with the bus and noted. -/
structure Notes (before : χ) (line : BusLine) (after : χ) : Prop where
  possible : line.Possible (receiversAfter (desk.log before))
  does : line.Does ch (desk.bus before) (desk.bus after)
  noted : desk.log after = desk.log before ++ [line]

/-- A listener does with an event what a sender of the bus does, and notes it. -/
structure Forwards (l : ListenerRef) (event : Event) (w : World χ)
    (answer : Except ListenerError Unit) (w' : World χ) : Prop where
  answer_eq : (w.sendTo ch desk.toBusPlace event).1 = answer
  registry_eq : (w.sendTo ch desk.toBusPlace event).2.registry = w'.registry
  bus_eq : desk.bus (w.sendTo ch desk.toBusPlace event).2.client = desk.bus w'.client
  noted : desk.log w'.client = desk.log w.client ++
    [.fired l event (desk.write w.client (w.registry.entity event.entity).id) answer]

variable {ch desk}

theorem Forwards.notes {l : ListenerRef} {event : Event} {w w' : World χ}
    {answer : Except ListenerError Unit} (h : desk.Forwards ch l event w answer w') :
    desk.Notes ch w.client
      (.fired l event (desk.write w.client (w.registry.entity event.entity).id) answer)
      w'.client := by
  refine ⟨trivial, ⟨fun e => desk.write w.client (w.registry.entity e).id, rfl, ?_⟩, h.noted⟩
  rw [← h.answer_eq, ← h.bus_eq, sendTo]
  simp only [desk.bus_setBus]

end BusDesk

/-- What clients do at a time. Whatever they do with the forest or with attributes is told to
listeners that are allowed, and so is an event that they fire at some listeners themselves. They may
use the bus, or do something that leaves it alone. -/
inductive BusStep (ch : Channel κ Event) (desk : BusDesk κ χ) (allowed : Observers χ → Prop)
    (w : World χ) : World χ → Prop
  | deed {obs : Observers χ} (listens : allowed obs) (holds : Holds) (deed : Deed)
      (valid : deed.Valid w.registry) : BusStep ch desk allowed w (deed.perform obs holds w)
  | build {obs : Observers χ} (listens : allowed obs) (holds : Holds) (b : Blueprint) (id : Uuid) :
      BusStep ch desk allowed w (w.build obs holds b id).2
  | bagDeed {obs : Observers χ} (listens : allowed obs) (holds : Holds) (deed : BagDeed) :
      BusStep ch desk allowed w (deed.perform obs holds w).2
  | fire {obs : Observers χ} (listens : allowed obs) (holds : Holds) (listeners : List ListenerRef)
      (event : Event) : BusStep ch desk allowed w (w.notify obs holds listeners event).2
  | use {line : BusLine} {client : χ} (notes : desk.Notes ch w.client line client) :
      BusStep ch desk allowed w { w with client }
  | other {w' : World χ} (bus : desk.bus w'.client = desk.bus w.client)
      (log : desk.log w'.client = desk.log w.client) : BusStep ch desk allowed w w'

/-- The senders of the bus forward each event to it and do nothing else. All other listeners do what
clients can do; the listeners of their own deeds are of the same kind, and so on to some depth. -/
inductive Observers.Connected (ch : Channel κ Event) (desk : BusDesk κ χ) : Observers χ → Prop
  | intro {obs : Observers χ} (allowed : Observers χ → Prop)
      (inner : ∀ o, allowed o → Connected ch desk o)
      (sends : ∀ holds l event w, desk.Sends w.client l → desk.Forwards ch l event w
        (obs.lifecycle holds l event w).1 (obs.lifecycle holds l event w).2)
      (responds : ∀ holds l event w, ¬ desk.Sends w.client l →
        ReflTransGen (BusStep ch desk allowed) w (obs.lifecycle holds l event w).2)
      (told : ∀ holds l event w,
        ReflTransGen (BusStep ch desk allowed) w (obs.bag holds l event w)) :
      Connected ch desk obs

/-- What all listeners keep of the state of the clients. -/
structure Observers.Minds (obs : Observers χ) (P : χ → Prop) : Prop where
  heard : ∀ {holds l event} {w : World χ}, P w.client → P (obs.lifecycle holds l event w).2.client
  told : ∀ {holds l event} {w : World χ}, P w.client → P (obs.bag holds l event w).client

namespace Observers.Minds

variable {obs : Observers χ} {P : χ → Prop} {w : World χ} (h : obs.Minds P)

include h

theorem keeps : obs.Keeps fun w => P w.client where
  heard := h.heard
  released hw _ := hw
  entered hw _ _ := hw
  left hw := hw
  founded hw := hw
  opened hw _ := hw
  created hw _ := hw
  killed hw _ := hw
  closed hw := hw

theorem deliverDue (holds : Holds) (due : List (SlotChange × AttributeListenerRef))
    (hw : P w.client) : P (w.deliverDue obs holds due).client := by
  induction due generalizing w with
  | nil => exact hw
  | cons p due ih => exact ih (h.told hw)

theorem deliverEach (holds : Holds) (changes : List SlotChange)
    (listeners : List AttributeListenerRef) (hw : P w.client) :
    P (changes.foldl (fun w change => deliver obs holds listeners change w) w).client := by
  rw [← World.deliverDue_product]
  exact h.deliverDue holds _ hw

theorem bagDeed (holds : Holds) (deed : BagDeed) (hw : P w.client) :
    P (deed.perform obs holds w).2.client := by
  cases deed with
  | @set type b k v => exact h.deliverEach _ [_] _ hw
  | remove b k =>
    change P (w.removeAttribute obs holds b k).2.client
    unfold removeAttribute
    simp only
    split
    · exact hw
    · exact h.deliverEach _ [_] _ hw
  | copy target source =>
    change P (w.copyAttributes obs holds target source).2.client
    unfold copyAttributes
    split
    · exact hw
    · exact h.deliverEach _ _ _ hw
  | _ => exact hw

end Observers.Minds

/-- All that has happened to the bus since a moment is in the log. -/
def BusDesk.Logged (ch : Channel κ Event) (desk : BusDesk κ χ) (start : κ) (client : χ) : Prop :=
  BusUnderwent ch start (desk.log client) (desk.bus client)

namespace BusDesk.Logged

variable {ch : Channel κ Event} {desk : BusDesk κ χ} {start : κ}

omit [ValueTypes] in
theorem note {before after : χ} {line : BusLine} (h : desk.Logged ch start before)
    (notes : desk.Notes ch before line after) : desk.Logged ch start after := by
  rw [Logged, notes.noted]
  exact .concat h notes.possible notes.does

theorem steps {allowed : Observers χ → Prop}
    (hallowed : ∀ o, allowed o → o.Minds (desk.Logged ch start)) {w w' : World χ}
    (run : ReflTransGen (BusStep ch desk allowed) w w') (h : desk.Logged ch start w.client) :
    desk.Logged ch start w'.client := by
  induction run with
  | refl => exact h
  | tail _ step ih =>
    cases step with
    | deed listens holds deed valid =>
      exact deed.perform_keeps (hallowed _ listens).keeps holds valid ih
    | build listens holds b id =>
      exact createStubs_keeps holds (hallowed _ listens).keeps _ b.stubs ih
    | bagDeed listens holds deed => exact (hallowed _ listens).bagDeed holds deed ih
    | fire listens holds listeners event =>
      exact notify_keeps holds (hallowed _ listens).keeps.toKeepsMoving listeners event ih
    | use notes => exact ih.note notes
    | other bus log =>
      rw [Logged, bus, log]
      exact ih

end BusDesk.Logged

theorem Observers.Connected.minds {ch : Channel κ Event} {desk : BusDesk κ χ} {obs : Observers χ}
    (h : obs.Connected ch desk) (start : κ) : obs.Minds (desk.Logged ch start) := by
  induction h with
  | intro allowed _ sends responds told ih =>
    refine ⟨fun {holds l event w} hw => ?_, fun {holds l event w} hw => ?_⟩
    · by_cases hl : desk.Sends w.client l
      · exact hw.note (sends holds l event w hl).notes
      · exact .steps ih (responds holds l event w hl) hw
    · exact .steps ih (told holds l event w) hw

/-- A bus neither loses nor repeats nor reorders events. Whatever is done with a forest, however
many senders there are and wherever events are fired at them, each event is appended once, or
dropped with a failure because the bus is full, or ignored because nobody is left to receive it.
What receivers take and what still waits are the events appended, in this order. -/
theorem bus_accounts_for_events {ch : Channel κ Event} {view : κ → Queue Event}
    (lawful : ch.Lawful view) {desk : BusDesk κ χ} {w w' : World χ} {capacity : Nat}
    (fresh : desk.bus w.client = LifecycleBus.new ch capacity ∨
      desk.bus w.client = LifecycleBus.createPair ch capacity)
    (blank : desk.log w.client = [])
    (run : ReflTransGen (BusStep ch desk (Observers.Connected ch desk)) w w') :
    BusAccount capacity (desk.log w'.client) ∧
      (receiversAfter (desk.log w'.client) ≠ 0 →
        (view (desk.bus w'.client)).pending = waitingAfter (desk.log w'.client)) := by
  have hview : view (desk.bus w.client) = ⟨capacity, [], 1⟩ := by
    rcases fresh with hnew | hpair
    · rw [hnew]
      exact lawful.bounded capacity
    · rw [hpair]
      exact LifecycleBus.view_createPair lawful capacity
  have hstart : desk.Logged ch (desk.bus w.client) w.client := by
    rw [BusDesk.Logged, blank]
    exact .nothing
  have hend := hstart.steps (fun _ hobs => hobs.minds _) run
  exact ⟨hend.account lawful hview, (hend.agrees lawful hview).stands.pending_eq⟩

end

/-! ### Scripts -/

namespace Script

open scoped PlainType

theorem Action.session_bind {α : Type} (f : Session → Action α) (w : World Session) :
    (Action.session >>= f) w = f w.client w := rfl

/-- The senders that scripts make do what senders do. -/
theorem lifecycle_sender {nesting bus : Nat} {l : ListenerRef} {w : World Session}
    (sender : (w.client.madeListeners.get l.index).bus? = some bus) (holds : Holds)
    (event : Event) :
    (observers (nesting + 1)).lifecycle holds l event w =
      w.sendTo Queue.channel (busPlace bus) event := by
  have hmade : w.client.madeListeners.get l.index = .sender bus := by
    cases hlistener : w.client.madeListeners.get l.index with
    | sender => simpa [Listener.bus?, hlistener] using sender
    | _ => simp [Listener.bus?, hlistener] at sender
  have hrespond : ∀ run, respond run l event w = sendTo bus event w := by
    intro run
    rw [respond, Action.session_bind, hmade]
  rw [observers]
  simp only [hrespond]
  rfl

/-! ### A bus in use -/

/-- The state of a script together with a log of its first bus. -/
def busDesk : BusDesk (Queue Event) (Session × List BusLine) where
  bus c := (busPlace 0).bus c.1
  setBus b c := ((busPlace 0).setBus b c.1, c.2)
  bus_setBus b c := (busPlace 0).bus_setBus b c.1
  write c := c.1.write
  log := Prod.snd
  Sends c l := (c.1.madeListeners.get l.index).bus? = some 0

/-- Uses the first bus and notes it. -/
def post (line : BusLine) (b : Queue Event) (w : World (Session × List BusLine)) :
    World (Session × List BusLine) :=
  { w with client := ((busPlace 0).setBus b w.client.1, w.client.2 ++ [line]) }

theorem busStep_post {allowed : Observers (Session × List BusLine) → Prop}
    {w : World (Session × List BusLine)} {line : BusLine} {b : Queue Event}
    (possible : line.Possible (receiversAfter w.client.2))
    (does : line.Does Queue.channel (busDesk.bus w.client) b) :
    BusStep Queue.channel busDesk allowed w (post line b w) := by
  refine .use ⟨possible, ?_, rfl⟩
  change line.Does Queue.channel _ ((busPlace 0).bus ((busPlace 0).setBus b w.client.1))
  rw [(busPlace 0).bus_setBus]
  exact does

/-- Empties the first bus, if that is possible. -/
def collect (w : World (Session × List BusLine)) : World (Session × List BusLine) :=
  let (events, b) := LifecycleBus.drain Queue.channel (busDesk.bus w.client)
  if receiversAfter w.client.2 = 0 then w else post (.drained 2 events) b w

/-- Senders do what they do in scripts, which is noted, and the other listeners do something else.
-/
def posting (others : Holds → World (Session × List BusLine) → World (Session × List BusLine)) :
    Observers (Session × List BusLine) where
  lifecycle holds l event w :=
    if (w.client.1.madeListeners.get l.index).bus? = some 0 then
      let (answer, v) := (observers 1).lifecycle holds l event ⟨w.registry, w.client.1⟩
      let line := .fired l event (w.client.1.write (w.registry.entity event.entity).id) answer
      (answer, ⟨v.registry, v.client, w.client.2 ++ [line]⟩)
    else (.ok (), others holds w)
  bag _ _ _ w := w
  slack _ := 1
  remains _ _ _ := true

theorem posting_connected
    {others : Holds → World (Session × List BusLine) → World (Session × List BusLine)}
    (allowed : Observers (Session × List BusLine) → Prop)
    (inner : ∀ o, allowed o → o.Connected Queue.channel busDesk)
    (responds : ∀ holds w,
      ReflTransGen (BusStep Queue.channel busDesk allowed) w (others holds w)) :
    (posting others).Connected Queue.channel busDesk := by
  refine .intro allowed inner (fun holds l event w hl => ?_) (fun holds l event w hl => ?_)
    fun _ _ _ _ => .refl
  · have hsent : (observers 1).lifecycle holds l event ⟨w.registry, w.client.1⟩ =
        (⟨w.registry, w.client.1⟩ : World Session).sendTo Queue.channel (busPlace 0) event :=
      lifecycle_sender (w := ⟨w.registry, w.client.1⟩) hl holds event
    simp only [posting, if_pos (show _ = _ from hl), hsent]
    exact ⟨rfl, rfl, rfl, rfl⟩
  · rw [show (posting others).lifecycle holds l event w = (.ok (), others holds w) from if_neg hl]
    exact responds holds w

/-- The other listeners do nothing. -/
def forwarding : Observers (Session × List BusLine) := posting fun _ w => w

theorem forwarding_connected : forwarding.Connected Queue.channel busDesk :=
  posting_connected (fun _ => False) nofun fun _ _ => .refl

/-- The other listeners empty the bus, and then create an entity. -/
def sorting : Observers (Session × List BusLine) := posting fun holds w =>
  enact forwarding holds [.request (.newEntity (.standalone 1) (.ofNat 2) ∅)] (collect w)

theorem busSteps_enact {allowed : Observers (Session × List BusLine) → Prop}
    {obs : Observers (Session × List BusLine)} (listens : allowed obs) (holds : Holds)
    (deeds : List Deed) (w : World (Session × List BusLine)) :
    ReflTransGen (BusStep Queue.channel busDesk allowed) w (enact obs holds deeds w) := by
  induction deeds generalizing w with
  | nil => exact .refl
  | cons deed deeds ih =>
    rw [enact]
    split
    · rename_i valid
      exact .head (.deed listens holds deed valid) (ih _)
    · exact ih w

theorem sorting_connected : sorting.Connected Queue.channel busDesk := by
  refine posting_connected (· = forwarding) ?_ fun holds w => ?_
  · rintro _ rfl
    exact forwarding_connected
  have hcollected :
      ReflTransGen (BusStep Queue.channel busDesk (· = forwarding)) w (collect w) := by
    unfold collect
    simp only
    split
    · exact .refl
    · rename_i hinUse
      exact .single (busStep_post hinUse rfl)
  exact hcollected.trans (busSteps_enact (by rfl) holds _ _)

/-- Two containers of a tree, each with a sender, and a bus with room for one event. -/
def mailRoom : World (Session × List BusLine) where
  registry :=
    let r := (Registry.empty.newFactory .unbounded).2
    let r := ((r.newContainer (.ofNat 100) ⟨0⟩).2.newContainer (.ofNat 200) ⟨0⟩).2
    (r.setListeners (.standalone 0) ⟨[⟨0⟩, ⟨2⟩]⟩).setListeners (.standalone 1) ⟨[⟨1⟩]⟩
  client :=
    ({ (default : Session) with
        madeListeners := ⟨#[.sender 0, .sender 0, .silent]⟩
        madeBuses := ⟨#[LifecycleBus.createPair Queue.channel 1]⟩ }, [])

/-- The entity 1 is created in the first container. There a listener takes the event and creates the
entity 2 in the second container. The bus is full now, until a receiver takes the event. -/
def firstPost : World (Session × List BusLine) :=
  let w := enact sorting .nothing [.request (.newEntity (.standalone 0) (.ofNat 1) ∅),
    .request (.newEntity (.standalone 0) (.ofNat 3) ∅)] mailRoom
  let (event, b) := LifecycleBus.tryRecv Queue.channel (busDesk.bus w.client)
  post (.took 7 event) b w

/-- One more event waits when the last handle is dropped. -/
def lastPost : World (Session × List BusLine) :=
  let w := enact sorting .nothing [.request (.newEntity (.standalone 1) (.ofNat 5) ∅)] firstPost
  enact sorting .nothing [.request (.kill (.standalone 0) (.ofNat 1))]
    (post .left (LifecycleBus.dropReceiver Queue.channel (busDesk.bus w.client)) w)

/-- Of five events that are fired, three are appended, one is dropped and one is ignored. -/
theorem bus_accounts_for_events_lastPost :
    receiversAfter firstPost.client.2 = 1 ∧
      (busDesk.bus firstPost.client).pending = waitingAfter firstPost.client.2 ∧
      BusAccount 1 lastPost.client.2 ∧ receiversAfter lastPost.client.2 = 0 ∧
      (takenIn lastPost.client.2).map Event.entity = [⟨0⟩, ⟨1⟩] ∧
      (appendedIn lastPost.client.2).map Event.entity = [⟨0⟩, ⟨1⟩, ⟨3⟩] ∧
      lastPost.client.2.length = 8 := by
  have hfirst : ReflTransGen
      (BusStep Queue.channel busDesk (Observers.Connected Queue.channel busDesk))
      mailRoom firstPost := by
    refine (busSteps_enact sorting_connected .nothing _ _).tail (busStep_post ?_ ?_)
    · change receiversAfter _ ≠ 0
      decide +kernel
    · rfl
  have hlast : ReflTransGen
      (BusStep Queue.channel busDesk (Observers.Connected Queue.channel busDesk))
      firstPost lastPost := by
    refine .trans (.tail (busSteps_enact sorting_connected .nothing _ _) (busStep_post ?_ ?_))
      (busSteps_enact sorting_connected .nothing _ _)
    · change receiversAfter _ ≠ 0
      decide +kernel
    · rfl
  have hone : receiversAfter (busDesk.log firstPost.client) = 1 := by decide +kernel
  have hpending : (id (busDesk.bus firstPost.client)).pending =
      waitingAfter (busDesk.log firstPost.client) :=
    (bus_accounts_for_events Queue.channel_lawful (.inr rfl) rfl hfirst).2
      (hone ▸ Nat.one_ne_zero)
  have haccount : BusAccount 1 (busDesk.log lastPost.client) :=
    (bus_accounts_for_events Queue.channel_lawful (.inr rfl) rfl (hfirst.trans hlast)).1
  exact ⟨hone, hpending, haccount, by decide +kernel, by decide +kernel, by decide +kernel,
    by decide +kernel⟩

end Script

end EntityForest
