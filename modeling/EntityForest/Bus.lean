import EntityForest.World

/-! Buses of lifecycle events. A bus is a bounded channel with a sender that fits in where listeners
do: it forwards what it hears. Work that follows from an event can then be done later, by whoever
receives it. How channels work is left open. -/

namespace EntityForest

/-! ### Channels -/

/-- What comes of an attempt to send a message. Unless it was sent, the message comes back. -/
inductive SendOutcome (α : Type) where
  | sent
  | full (message : α)
  | disconnected (message : α)

/-- Bounded channels for messages, as far as buses use them; `κ` has the states of a channel. A
channel is made with a sender and a receiver. -/
structure Channel (κ α : Type) where
  bounded : Nat → κ
  trySend : α → κ → SendOutcome α × κ
  tryRecv : κ → Option α × κ
  len : κ → Nat
  isEmpty : κ → Bool
  cloneReceiver : κ → κ
  dropReceiver : κ → κ

/-- A queue with room for so many messages, and the number of its receivers. -/
@[ext]
structure Queue (α : Type) where
  capacity : Nat
  pending : List α
  receivers : Nat
  deriving DecidableEq, Inhabited

/-- Channels that work like queues; `view` tells which queue a channel is like. Nothing is said of
the messages that are left when the last receiver is dropped. -/
structure Channel.Lawful {κ α : Type} (ch : Channel κ α) (view : κ → Queue α) : Prop where
  bounded : ∀ capacity, view (ch.bounded capacity) = ⟨capacity, [], 1⟩
  trySend_sent : ∀ {k}, (view k).receivers ≠ 0 → (view k).pending.length < (view k).capacity →
    ∀ message, (ch.trySend message k).1 = .sent ∧
      view (ch.trySend message k).2 = { view k with pending := (view k).pending ++ [message] }
  trySend_full : ∀ {k}, (view k).receivers ≠ 0 → (view k).capacity ≤ (view k).pending.length →
    ∀ message, (ch.trySend message k).1 = .full message ∧ view (ch.trySend message k).2 = view k
  trySend_disconnected : ∀ {k}, (view k).receivers = 0 →
    ∀ message, (ch.trySend message k).1 = .disconnected message ∧
      (view (ch.trySend message k).2).capacity = (view k).capacity ∧
      (view (ch.trySend message k).2).receivers = 0
  tryRecv : ∀ {k}, (view k).receivers ≠ 0 → (ch.tryRecv k).1 = (view k).pending.head? ∧
    view (ch.tryRecv k).2 = { view k with pending := (view k).pending.tail }
  len : ∀ {k}, (view k).receivers ≠ 0 → ch.len k = (view k).pending.length
  isEmpty : ∀ {k}, (view k).receivers ≠ 0 → (ch.isEmpty k = true ↔ (view k).pending = [])
  cloneReceiver : ∀ {k}, (view k).receivers ≠ 0 →
    view (ch.cloneReceiver k) = { view k with receivers := (view k).receivers + 1 }
  dropReceiver : ∀ {k}, (view k).receivers ≠ 0 →
    (view (ch.dropReceiver k)).capacity = (view k).capacity ∧
      (view (ch.dropReceiver k)).receivers = (view k).receivers - 1 ∧
      ((view k).receivers ≠ 1 → (view (ch.dropReceiver k)).pending = (view k).pending)

namespace Queue

variable {α : Type}

def trySend (message : α) (q : Queue α) : SendOutcome α × Queue α :=
  if q.receivers = 0 then (.disconnected message, q)
  else if q.capacity ≤ q.pending.length then (.full message, q)
  else (.sent, { q with pending := q.pending ++ [message] })

/-- Channels that are queues. -/
def channel : Channel (Queue α) α where
  bounded capacity := ⟨capacity, [], 1⟩
  trySend := trySend
  tryRecv q := (q.pending.head?, { q with pending := q.pending.tail })
  len q := q.pending.length
  isEmpty q := q.pending.isEmpty
  cloneReceiver q := { q with receivers := q.receivers + 1 }
  dropReceiver q := { q with receivers := q.receivers - 1 }

theorem channel_lawful : (channel : Channel (Queue α) α).Lawful id where
  bounded _ := rfl
  trySend_sent {q} hreceivers hroom message := by
    have hsent : q.trySend message = (.sent, { q with pending := q.pending ++ [message] }) :=
      (if_neg hreceivers).trans (if_neg (Nat.not_le.2 hroom))
    exact Prod.mk.inj hsent
  trySend_full {q} hreceivers hfull message := by
    have hrefused : q.trySend message = (.full message, q) :=
      (if_neg hreceivers).trans (if_pos hfull)
    exact Prod.mk.inj hrefused
  trySend_disconnected {q} hgone message := by
    have hrefused : q.trySend message = (.disconnected message, q) := if_pos hgone
    exact ⟨congrArg Prod.fst hrefused, congrArg (·.2.capacity) hrefused,
      (congrArg (·.2.receivers) hrefused).trans hgone⟩
  tryRecv _ := ⟨rfl, rfl⟩
  len _ := rfl
  isEmpty _ := List.isEmpty_iff
  cloneReceiver _ := rfl
  dropReceiver _ := ⟨rfl, rfl, fun _ => rfl⟩

end Queue

/-! ### Buses -/

namespace LifecycleBus

variable {κ : Type} (ch : Channel κ Event)

/-- A bus that holds at most `capacity` events that nobody has received. -/
def new (capacity : Nat) : κ := ch.bounded capacity

/-- One more handle that receives events. -/
def receiver (bus : κ) : κ := ch.cloneReceiver bus

/-- A handle that receives events is gone. The bus itself counts as one. -/
def dropReceiver (bus : κ) : κ := ch.dropReceiver bus

/-- A bus of which only a sender and a receiver are kept. -/
def createPair (capacity : Nat) : κ := dropReceiver ch (receiver ch (new ch capacity))

/-- Why a full bus refuses an event; `entity` is the identity of the entity as written. -/
def fullMessage (entity : String) : String :=
  "lifecycle bus full, dropped event for entity " ++ entity

/-- What a sender answers to an event. It does not matter to it whether anybody receives events. -/
def send (idText : EntityRef → String) (event : Event) (bus : κ) :
    Except ListenerError Unit × κ :=
  match ch.trySend event bus with
  | (.sent, bus) => (.ok (), bus)
  | (.disconnected _, bus) => (.ok (), bus)
  | (.full event, bus) => (.error ⟨fullMessage (idText event.entity), none⟩, bus)

/-- Receives one event after the other until there is none, or for so many rounds. -/
def drainFor : Nat → κ → List Event × κ
  | 0, bus => ([], bus)
  | rounds + 1, bus =>
    match ch.tryRecv bus with
    | (none, bus) => ([], bus)
    | (some event, bus) =>
      let (events, bus) := drainFor rounds bus
      (event :: events, bus)

/-- Receives all events. Each round but the last receives one. -/
def drain (bus : κ) : List Event × κ := drainFor ch (ch.len bus + 1) bus

/-- Receives one event. -/
def tryRecv (bus : κ) : Option Event × κ := ch.tryRecv bus

def pendingCount (bus : κ) : Nat := ch.len bus

def hasEvents (bus : κ) : Bool := !ch.isEmpty bus

end LifecycleBus

/-! ### Senders -/

/-- Where clients keep a bus, and how they write identities. -/
structure BusPlace (κ χ : Type) where
  bus : χ → κ
  setBus : κ → χ → χ
  bus_setBus : ∀ b c, bus (setBus b c) = b
  write : χ → Uuid → String

variable [ValueTypes]

/-- What a sender of a bus does when it hears of an event. -/
def World.sendTo {κ χ : Type} (ch : Channel κ Event) (place : BusPlace κ χ) (event : Event)
    (w : World χ) : Except ListenerError Unit × World χ :=
  let idText (e : EntityRef) := place.write w.client (w.registry.entity e).id
  let (answer, bus) := LifecycleBus.send ch idText event (place.bus w.client)
  (answer, { w with client := place.setBus bus w.client })

end EntityForest
