import EntityForest.Attribute.Plain
import EntityForest.Proofs.Tidings
import Mathlib.Data.Finset.Dedup
import Mathlib.Data.Finset.Image
import Mathlib.Data.Finset.Insert

/-! # Mirrors of bags

A listener that is registered at an empty bag can keep account of the filled slots from nothing but
what it hears. An event names the slot and prints the type of its value, so the account is right as
long as no two values are stored under one name whose types are printed alike. As soon as there are,
an event contradicts what has been heard before. -/

namespace EntityForest

open Registry World
open Relation (ReflTransGen)

/-! ## What can be known from events -/

/-- A slot as far as events tell of it: its name, and the printed name of its type. -/
structure SlotLabel where
  name : String
  typeName : String
  deriving DecidableEq

def AttributeEvent.label (event : AttributeEvent) : SlotLabel := ⟨event.name, event.typeName⟩

/-- What is known of the filled slots after an event, unless it contradicts what is known before:
only an empty slot is added, and only a filled one changes or is removed. -/
def hear (labels : Finset SlotLabel) (event : AttributeEvent) : Option (Finset SlotLabel) :=
  match event.change with
  | .added => if event.label ∈ labels then none else some (insert event.label labels)
  | .changed => if event.label ∈ labels then some labels else none
  | .removed => if event.label ∈ labels then some (labels.erase event.label) else none

/-- What is known of the filled slots after some events, if there are none at first and no event
contradicts those before it. -/
def mirror (events : List AttributeEvent) : Option (Finset SlotLabel) := events.foldlM hear ∅

theorem mirror_append {events : List AttributeEvent} {labels : Finset SlotLabel}
    (h : mirror events = some labels) (more : List AttributeEvent) :
    mirror (events ++ more) = more.foldlM hear labels := by
  rw [mirror] at h
  rw [mirror, List.foldlM_append, h]
  rfl

section

variable [ValueTypes]

def Slot.label (slot : Slot) : SlotLabel := ⟨slot.name, slot.type.fullName⟩

namespace Bag

variable (b : Bag)

/-- The slots that are filled. -/
def slots : Finset Slot := b.values.keys.toFinset

@[simp] theorem mem_slots {slot : Slot} : slot ∈ b.slots ↔ slot ∈ b.values := by
  simp [slots, Table.mem_def]

theorem slots_store (slot : Slot) (v : Value) :
    (b.store slot v).2.slots = insert slot b.slots := by
  ext j
  simp

theorem slots_clear (slot : Slot) : (b.clear slot).slots = b.slots.erase slot := by
  ext j
  simp [clear]

theorem slots_subset_storeEach (entries : List (Slot × Value)) :
    b.slots ⊆ (b.storeEach entries).2.slots := by
  induction entries generalizing b with
  | nil => exact Finset.Subset.refl _
  | cons p rest ih =>
    refine Finset.Subset.trans ?_ (ih (b.store p.1 p.2).2)
    rw [slots_store]
    exact Finset.subset_insert _ _

/-- What a listener can know of the slots that are filled. -/
def labels : Finset SlotLabel := b.slots.image Slot.label

/-- No two filled slots look the same to listeners. -/
def Discernible : Prop := Set.InjOn Slot.label (b.slots : Set Slot)

variable {b}

theorem discernible_iff : b.Discernible ↔ (b.values.keys.map Slot.label).Nodup := by
  rw [Discernible, slots, List.coe_toFinset]
  constructor
  · exact fun h => b.values.nodup_keys.map_on fun x hx y hy => h hx hy
  · exact fun h x hx y hy => List.inj_on_of_nodup_map h hx hy

instance (b : Bag) : Decidable b.Discernible := decidable_of_iff _ discernible_iff.symm

theorem Discernible.of_subset {b' : Bag} (h : b'.Discernible) (hsub : b.slots ⊆ b'.slots) :
    b.Discernible :=
  Set.InjOn.mono (Finset.coe_subset.2 hsub) h

theorem label_mem_labels {slot : Slot} (hslot : slot ∈ b.values) : slot.label ∈ b.labels :=
  Finset.mem_image_of_mem _ (b.mem_slots.2 hslot)

/-! ## What is heard of a change -/

/-- A value that is stored is announced as what it is to the slots filled so far. The announcement
is a contradiction if the slot looks like another one. -/
theorem hear_store (h : b.Discernible) (slot : Slot) (v : Value) {known : Finset SlotLabel} :
    hear b.labels (b.store slot v).1.event = some known ↔
      (b.store slot v).2.Discernible ∧ known = (b.store slot v).2.labels := by
  rw [labels, labels, Discernible, slots_store]
  by_cases hfilled : slot ∈ b.values
  · have hslot : slot ∈ b.slots := b.mem_slots.2 hfilled
    have hlabel : slot.label ∈ b.slots.image Slot.label := Finset.mem_image_of_mem _ hslot
    rw [Finset.insert_eq_of_mem hslot]
    have hevent : (b.store slot v).1 = ⟨slot, .changed⟩ := by simp [store, hfilled]
    have hheard : hear (b.slots.image Slot.label) (b.store slot v).1.event =
        some (b.slots.image Slot.label) := by
      rw [hevent]
      exact if_pos hlabel
    rw [hheard, Option.some.injEq]
    exact ⟨fun heq => ⟨h, heq.symm⟩, fun heq => heq.2.symm⟩
  · have hslot : slot ∉ (b.slots : Set Slot) := by simpa using hfilled
    have hevent : (b.store slot v).1 = ⟨slot, .added⟩ := by simp [store, hfilled]
    have hheard : hear (b.slots.image Slot.label) (b.store slot v).1.event =
        if slot.label ∈ b.slots.image Slot.label then none
        else some (insert slot.label (b.slots.image Slot.label)) := by
      rw [hevent]
      rfl
    rw [hheard, Finset.coe_insert, Set.injOn_insert hslot, Finset.image_insert, ← Finset.coe_image,
      Finset.mem_coe]
    split
    · rename_i hlabel
      exact ⟨fun heq => absurd heq.symm (Option.some_ne_none known),
        fun hknown => absurd hlabel hknown.1.2⟩
    · rename_i hlabel
      rw [Option.some.injEq]
      exact ⟨fun heq => ⟨⟨h, hlabel⟩, heq.symm⟩, fun heq => heq.2.symm⟩

theorem hear_storeEach (h : b.Discernible) (entries : List (Slot × Value))
    {known : Finset SlotLabel} :
    ((b.storeEach entries).1.map SlotChange.event).foldlM hear b.labels = some known ↔
      (b.storeEach entries).2.Discernible ∧ known = (b.storeEach entries).2.labels := by
  induction entries generalizing b with
  | nil =>
    change some b.labels = some known ↔ _
    rw [Option.some.injEq]
    exact ⟨fun heq => ⟨h, heq.symm⟩, fun heq => heq.2.symm⟩
  | cons p rest ih =>
    change ((b.store p.1 p.2).1.event ::
      ((b.store p.1 p.2).2.storeEach rest).1.map SlotChange.event).foldlM hear b.labels = _ ↔
        ((b.store p.1 p.2).2.storeEach rest).2.Discernible ∧ _
    rw [List.foldlM_cons]
    constructor
    · intro hheard
      obtain ⟨middle, hfirst, hrest⟩ := Option.bind_eq_some_iff.1 hheard
      obtain ⟨hstored, rfl⟩ := (hear_store h p.1 p.2).1 hfirst
      exact (ih hstored).1 hrest
    · intro hlast
      have hstored : (b.store p.1 p.2).2.Discernible :=
        hlast.1.of_subset (slots_subset_storeEach _ rest)
      exact Option.bind_eq_some_iff.2
        ⟨_, (hear_store h p.1 p.2).2 ⟨hstored, rfl⟩, (ih hstored).2 hlast⟩

theorem Discernible.clear (h : b.Discernible) (slot : Slot) : (b.clear slot).Discernible := by
  refine h.of_subset ?_
  rw [slots_clear]
  exact Finset.erase_subset _ _

theorem Discernible.labels_clear (h : b.Discernible) {slot : Slot} (hslot : slot ∈ b.values) :
    (b.clear slot).labels = b.labels.erase slot.label := by
  rw [labels, slots_clear, labels]
  ext label
  simp only [Finset.mem_image, Finset.mem_erase]
  constructor
  · rintro ⟨j, ⟨hne, hj⟩, rfl⟩
    exact ⟨fun heq => hne (h hj (b.mem_slots.2 hslot) heq), j, hj, rfl⟩
  · rintro ⟨hne, j, hj, rfl⟩
    exact ⟨j, ⟨fun heq => hne (congrArg Slot.label heq), hj⟩, rfl⟩

theorem hear_clear (h : b.Discernible) {slot : Slot} (hslot : slot ∈ b.values)
    {known : Finset SlotLabel} :
    ([⟨slot, .removed⟩].map SlotChange.event).foldlM hear b.labels = some known ↔
      (b.clear slot).Discernible ∧ known = (b.clear slot).labels := by
  have hheard : ([⟨slot, .removed⟩].map SlotChange.event).foldlM hear b.labels =
      some (b.clear slot).labels := by
    rw [h.labels_clear hslot, List.map_singleton, List.foldlM_cons]
    exact congrArg (Option.bind · some) (if_pos (label_mem_labels hslot))
  rw [hheard, Option.some.injEq]
  exact ⟨fun heq => ⟨h.clear slot, heq.symm⟩, fun heq => heq.2.symm⟩

variable (b)

/-! ## Registration -/

/-- The listener is registered. Nobody can be registered twice. -/
def Registers (l : AttributeListenerRef) : Prop := b.listeners.count l = 1

instance (l : AttributeListenerRef) : Decidable (b.Registers l) :=
  inferInstanceAs (Decidable (b.listeners.count l = 1))

variable {b} {l : AttributeListenerRef}

theorem registers_addListener (h : l ∉ b.listeners) : (b.addListener l).2.Registers l := by
  simp [addListener, h, Registers, List.count_eq_zero_of_not_mem h]

theorem Registers.addListener (h : b.Registers l) (k : AttributeListenerRef) :
    (b.addListener k).2.Registers l := by
  rw [Bag.addListener]
  split
  · exact h
  · rename_i hk
    have hne : k ≠ l := by
      rintro rfl
      exact hk (List.count_pos_iff.1 (by rw [h]; exact Nat.one_pos))
    simpa [Registers, hne] using h

theorem Registers.removeListener (h : b.Registers l) {k : AttributeListenerRef} (hk : k ≠ l) :
    (b.removeListener k).2.Registers l := by
  rw [Registers, Bag.removeListener, List.count_filter]
  · exact h
  · simpa using hk.symm

end Bag

/-- The bag is filled as before, and the listener is still registered there if it was. -/
structure Registry.Spared (b : BagRef) (l : AttributeListenerRef) (r s : Registry) : Prop where
  values : (s.bag b).values = (r.bag b).values
  kept : (r.bag b).Registers l → (s.bag b).Registers l

namespace Registry.Spared

variable {b : BagRef} {l : AttributeListenerRef} {r s t : Registry}

theorem refl (r : Registry) : Spared b l r r := ⟨rfl, id⟩

theorem trans (h : Spared b l r s) (k : Spared b l s t) : Spared b l r t :=
  ⟨k.values.trans h.values, k.kept ∘ h.kept⟩

theorem slots (h : Spared b l r s) : (s.bag b).slots = (r.bag b).slots := by
  rw [Bag.slots, Bag.slots, h.values]

/-- Others may come to hear of the bag or cease to, and any other bag may change. -/
theorem listen (r : Registry) (k : AttributeListenerRef) :
    Spared b l r (r.setBag b ((r.bag b).addListener k).2) where
  values := by
    rw [bag_setBag_self, Bag.addListener]
    split <;> rfl
  kept h := by
    rw [bag_setBag_self]
    exact h.addListener k

theorem unlisten {k : AttributeListenerRef} (hk : k ≠ l) (r : Registry) :
    Spared b l r (r.setBag b ((r.bag b).removeListener k).2) where
  values := by
    rw [bag_setBag_self]
    rfl
  kept h := by
    rw [bag_setBag_self]
    exact h.removeListener hk

theorem setBag {c : BagRef} (hc : c ≠ b) (r : Registry) (x : Bag) :
    Spared b l r (r.setBag c x) := by
  have hbag : (r.setBag c x).bag b = r.bag b := by rw [bag_setBag, if_neg hc.symm]
  exact ⟨by rw [hbag], by rw [hbag]; exact id⟩

end Registry.Spared

/-! ## Runs -/

variable {χ : Type}

/-- What happens while a listener is registered at a bag. The bag is written to, its values being
taken from any other bag in any order, and all its listeners leave what it holds and the
registration alone; or something else happens that does. -/
inductive Tending (b : BagRef) (l : AttributeListenerRef) (w : World (χ × List Tiding)) :
    World (χ × List Tiding) → Prop
  | set {obs : Observers χ} (spares : obs.Heeds (w.registry.bag b).listeners (Spared b l))
      (holds : Holds) {type : ValueType} (k : Key type) (v : type.Carrier) :
      Tending b l w (w.setAttribute obs.noted holds b k v).2
  | remove {obs : Observers χ} (spares : obs.Heeds (w.registry.bag b).listeners (Spared b l))
      (holds : Holds) {type : ValueType} (k : Key type) :
      Tending b l w (w.removeAttribute obs.noted holds b k).2
  | copy {obs : Observers χ} (spares : obs.Heeds (w.registry.bag b).listeners (Spared b l))
      (holds : Holds) {source : BagRef} (other : b ≠ source) {order : List (Slot × Value)}
      (all : order.Perm (w.registry.bag source).values.entries) :
      Tending b l w (w.storeListed obs.noted holds b order)
  | other {w' : World (χ × List Tiding)} (spared : Spared b l w.registry w'.registry)
      (unheard : Tiding.heardBy l w'.client.2 = Tiding.heardBy l w.client.2) : Tending b l w w'

namespace Tending

variable {b : BagRef} {l : AttributeListenerRef} {w : World (χ × List Tiding)}

/-- Copying takes the values of the source in the order in which it has them. -/
theorem copyAttributes {obs : Observers χ}
    (spares : obs.Heeds (w.registry.bag b).listeners (Spared b l)) (holds : Holds)
    (source : BagRef) : Tending b l w (w.copyAttributes obs.noted holds b source).2 := by
  rw [World.copyAttributes]
  split
  · exact .other (.refl _) rfl
  · rename_i hne
    exact .copy spares (holds.keepOwner source) hne (.refl _)

theorem listen (k : AttributeListenerRef) :
    Tending b l w
      { w with registry := w.registry.setBag b ((w.registry.bag b).addListener k).2 } :=
  .other (.listen w.registry k) rfl

theorem unlisten {k : AttributeListenerRef} (hk : k ≠ l) :
    Tending b l w
      { w with registry := w.registry.setBag b ((w.registry.bag b).removeListener k).2 } :=
  .other (.unlisten hk w.registry) rfl

end Tending

/-- The listener is registered, no two filled slots look the same, and the listener knows from what
it has heard which slots are filled. -/
structure Mirrored (b : BagRef) (l : AttributeListenerRef) (w : World (χ × List Tiding)) :
    Prop where
  registered : (w.registry.bag b).Registers l
  discernible : (w.registry.bag b).Discernible
  known : mirror (Tiding.heardBy l w.client.2) = some (w.registry.bag b).labels

/-- The listener is still registered, and it still knows which slots are filled unless two of them
look the same by now. -/
structure Following (b : BagRef) (l : AttributeListenerRef) (w : World (χ × List Tiding)) :
    Prop where
  registered : (w.registry.bag b).Registers l
  known_iff : mirror (Tiding.heardBy l w.client.2) = some (w.registry.bag b).labels ↔
    (w.registry.bag b).Discernible

theorem Following.mirrored {b : BagRef} {l : AttributeListenerRef} {w : World (χ × List Tiding)}
    (h : Following b l w) (discernible : (w.registry.bag b).Discernible) : Mirrored b l w :=
  ⟨h.registered, discernible, h.known_iff.2 discernible⟩

namespace Mirrored

variable {b : BagRef} {l : AttributeListenerRef} {w w' : World (χ × List Tiding)}
  (h : Mirrored b l w)

include h

/-- A bag that is written to tells all its listeners what has changed. -/
theorem write {x : Bag} {changes : List SlotChange}
    (heard : ∀ {known}, (changes.map SlotChange.event).foldlM hear (w.registry.bag b).labels =
      some known ↔ x.Discernible ∧ known = x.labels)
    (listeners : x.listeners = (w.registry.bag b).listeners) {obs : Observers χ}
    (spares : obs.Heeds (w.registry.bag b).listeners (Spared b l)) (holds : Holds) :
    Following b l (changes.foldl
      (fun w' change => deliver obs.noted holds (w.registry.bag b).listeners change w')
      { w with registry := w.registry.setBag b x }) := by
  obtain ⟨tidings, hspread⟩ := spread_deliverEach Spared.refl Spared.trans spares holds changes
    { w with registry := w.registry.setBag b x }
  have hregistered : ((w.registry.setBag b x).bag b).Registers l := by
    rw [bag_setBag_self, Bag.Registers, listeners]
    exact h.registered
  refine ⟨hspread.kept.kept hregistered, ?_⟩
  have hslots := hspread.kept.slots.trans (congrArg Bag.slots (bag_setBag_self w.registry b x))
  rw [hspread.logged, Tiding.heardBy_append, Tiding.heardBy_eq_events hspread.told h.registered,
    mirror_append h.known, heard, Bag.Discernible, Bag.Discernible, Bag.labels, Bag.labels, hslots]
  exact and_iff_left rfl

theorem step (hstep : Tending b l w w') : Following b l w' := by
  cases hstep with
  | @set _ spares holds type k v =>
    exact h.write (Bag.hear_storeEach h.discernible [(k.slot, ⟨type, v⟩)]) rfl spares
      (holds.keepOwner b)
  | remove spares holds k =>
    unfold World.removeAttribute
    simp only
    split
    · exact ⟨h.registered, iff_of_true h.known h.discernible⟩
    · rename_i v hfound
      exact h.write (Bag.hear_clear h.discernible (Table.mem_of_find? hfound)) rfl spares
        (holds.keepOwner b)
  | @copy _ spares holds _ _ order _ =>
    exact h.write (Bag.hear_storeEach h.discernible order)
      ((w.registry.bag b).listeners_storeEach order) spares (holds.keepOwner b)
  | other spared unheard =>
    refine ⟨spared.kept h.registered, ?_⟩
    rw [unheard, Bag.Discernible, Bag.labels, spared.slots]
    exact iff_of_true h.known h.discernible

/-- Along a run the listener knows which slots are filled as long as no two look the same. -/
theorem run {states : List (World (χ × List Tiding))}
    (hrun : (w :: states).IsChain (Tending b l)) :
    (∀ v ∈ states, mirror (Tiding.heardBy l v.client.2) = some (v.registry.bag b).labels) ↔
      ∀ v ∈ states, (v.registry.bag b).Discernible := by
  induction states generalizing w with
  | nil => exact iff_of_true nofun nofun
  | cons v states ih =>
    obtain ⟨hstep, hrest⟩ := List.isChain_cons_cons.1 hrun
    have hfollowing := h.step hstep
    rw [List.forall_mem_cons, List.forall_mem_cons, hfollowing.known_iff]
    exact and_congr_right fun hdiscernible => ih (hfollowing.mirrored hdiscernible) hrest

end Mirrored

/-- Whoever is registered at a bag from a moment on at which it is empty, and hears of no other bag,
can tell from what it hears which slots are filled, and never hears anything that contradicts this,
if and only if no two values are ever stored at a time whose slots look the same. -/
theorem listener_mirrors_bag {b : BagRef} {l : AttributeListenerRef}
    {w : World (χ × List Tiding)} {states : List (World (χ × List Tiding))}
    (registered : (w.registry.bag b).Registers l) (blank : (w.registry.bag b).values = ∅)
    (unheard : Tiding.heardBy l w.client.2 = []) (run : (w :: states).IsChain (Tending b l)) :
    (∀ v ∈ states, mirror (Tiding.heardBy l v.client.2) = some (v.registry.bag b).labels) ↔
      ∀ v ∈ states, (v.registry.bag b).Discernible := by
  have hslots : (w.registry.bag b).slots = ∅ := by
    rw [Bag.slots, blank]
    rfl
  have hstart : Mirrored b l w := by
    refine ⟨registered, ?_, ?_⟩
    · rw [Bag.Discernible, hslots]
      simp
    · rw [unheard, Bag.labels, hslots]
      rfl
  exact hstart.run run

end

section Dressing

open scoped PlainType

/-! ### Two slots of one name -/

def pace : Key .u32 := ⟨"pace"⟩

def paced : Key .bool := ⟨"pace"⟩

/-- Whoever hears of a change brings a second listener along, and empties the slot of this name for
numbers in another bag. -/
def Observers.recruiting : Observers Unit where
  lifecycle _ _ _ w := (.ok (), w)
  bag _ _ event w :=
    let r := w.registry.setBag (.standalone 0) ((w.registry.bag (.standalone 0)).addListener ⟨1⟩).2
    { w with
      registry := r.setBag (.standalone 1) ((r.bag (.standalone 1)).clear ⟨event.name, .u32⟩) }
  slack _ := 0
  remains _ _ _ := true

theorem Observers.recruiting_spares (listeners : List AttributeListenerRef) :
    recruiting.Heeds listeners (Spared (.standalone 0) ⟨0⟩) := by
  intro _ _ _ event w
  have hother : BagRef.standalone 1 ≠ .standalone 0 := by decide
  exact (Spared.listen w.registry ⟨1⟩).trans (.setBag hother _ _)

/-- An empty bag with a listener, and one with three values. -/
def wardrobe : World (Unit × List Tiding) where
  registry := { Registry.empty with
    bags := ⟨#[((∅ : Bag).addListener ⟨0⟩).2, ((∅ : Bag).storeEach
      [(pace.slot, ⟨.u32, (7 : UInt32)⟩), (paced.slot, ⟨.bool, true⟩),
        (⟨"gait", .str⟩, ⟨.str, "trot"⟩)]).2]⟩ }
  client := ((), [])

/-- Another listener comes. The empty bag gets a value twice, then what the other bag has left, the
last value first, and that again in the order of the other bag. It loses the value, and the other
listener goes. -/
def dressing : List (World (Unit × List Tiding)) :=
  let joined := { wardrobe with
    registry := wardrobe.registry.setBag (.standalone 0)
      ((wardrobe.registry.bag (.standalone 0)).addListener ⟨2⟩).2 }
  let once := (joined.setAttribute Observers.recruiting.noted .nothing (.standalone 0) pace
    (1 : UInt32)).2
  let twice := (once.setAttribute Observers.recruiting.noted .nothing (.standalone 0) pace
    (2 : UInt32)).2
  let copied := twice.storeListed Observers.recruiting.noted .nothing (.standalone 0)
    (twice.registry.bag (.standalone 1)).values.entries.reverse
  let again := (copied.copyAttributes Observers.recruiting.noted .nothing (.standalone 0)
    (.standalone 1)).2
  let removed :=
    (again.removeAttribute Observers.recruiting.noted .nothing (.standalone 0) pace).2
  [joined, once, twice, copied, again, removed, { removed with
    registry := removed.registry.setBag (.standalone 0)
      ((removed.registry.bag (.standalone 0)).removeListener ⟨2⟩).2 }]

/-- The listener hears of each slot by its name and its type. -/
theorem listener_mirrors_bag_dressed :
    (∀ w ∈ dressing, mirror (Tiding.heardBy ⟨0⟩ w.client.2) =
        some (w.registry.bag (.standalone 0)).labels) ∧
      dressing.getLast?.map (Tiding.heardBy ⟨0⟩ ·.client.2) = some
        [⟨"pace", "u32", .added⟩, ⟨"pace", "u32", .changed⟩,
          ⟨"gait", "alloc::string::String", .added⟩, ⟨"pace", "bool", .added⟩,
          ⟨"pace", "bool", .changed⟩, ⟨"gait", "alloc::string::String", .changed⟩,
          ⟨"pace", "u32", .removed⟩] := by
  have run : (wardrobe :: dressing).IsChain (Tending (.standalone 0) ⟨0⟩) := by
    have hother : BagRef.standalone 0 ≠ .standalone 1 := by decide
    refine .cons_cons (.listen ⟨2⟩) ?_
    refine .cons_cons (.set (Observers.recruiting_spares _) .nothing pace (1 : UInt32)) ?_
    refine .cons_cons (.set (Observers.recruiting_spares _) .nothing pace (2 : UInt32)) ?_
    refine .cons_cons (.copy (Observers.recruiting_spares _) .nothing hother
      (List.reverse_perm _)) ?_
    refine .cons_cons (.copyAttributes (Observers.recruiting_spares _) .nothing (.standalone 1)) ?_
    refine .cons_cons (.remove (Observers.recruiting_spares _) .nothing pace) ?_
    exact .cons_cons (.unlisten (by decide)) (.singleton _)
  have registered : (wardrobe.registry.bag (.standalone 0)).Registers ⟨0⟩ :=
    Bag.registers_addListener (b := ∅) List.not_mem_nil
  exact ⟨(listener_mirrors_bag registered rfl rfl run).2 (by decide +kernel), by decide +kernel⟩

end Dressing

/-! ### Misleading events -/

/-- Two types that are printed alike, with one value each. -/
inductive TwinType where
  | first
  | second
  deriving DecidableEq

namespace TwinType

scoped instance valueTypes : ValueTypes where
  Code := TwinType
  decidableEq := inferInstance
  Carrier _ := Unit
  fullName _ := "Twin"

end TwinType

section Lookalikes

open scoped TwinType

def twin (type : ValueType) : Key type := ⟨"twin"⟩

def stranger : Key .first := ⟨"stranger"⟩

namespace Observers

/-- The first listener keeps in mind what it hears. -/
def attentive : Observers (List AttributeEvent) where
  lifecycle _ _ _ w := (.ok (), w)
  bag _ l event w := if l = ⟨0⟩ then { w with client := w.client ++ [event] } else w
  slack _ := 0
  remains _ _ _ := true

/-- And the second one writes to another bag. -/
def straying : Observers (List AttributeEvent) where
  __ := attentive
  bag holds l event w :=
    if l = ⟨0⟩ then attentive.bag holds l event w
    else (w.setAttribute attentive holds (.standalone 1) stranger ()).2

theorem registry_attentive (holds : Holds) (l : AttributeListenerRef) (event : AttributeEvent)
    (w : World (List AttributeEvent)) : (attentive.bag holds l event w).registry = w.registry := by
  rw [attentive]
  simp only
  split <;> rfl

theorem registry_deliver_attentive (holds : Holds) (listeners : List AttributeListenerRef)
    (change : SlotChange) (w : World (List AttributeEvent)) :
    (deliver attentive holds listeners change w).registry = w.registry := by
  rw [deliver]
  induction listeners generalizing w with
  | nil => rfl
  | cons l listeners ih => rw [List.foldl_cons, ih, registry_attentive]

theorem attentive_spares (listeners : List AttributeListenerRef) :
    attentive.Heeds listeners (Spared (.standalone 0) ⟨0⟩) := by
  intro l _ holds event w
  rw [registry_attentive]
  exact .refl _

theorem straying_spares (listeners : List AttributeListenerRef) :
    straying.Heeds listeners (Spared (.standalone 0) ⟨0⟩) := by
  intro l _ holds event w
  rw [straying]
  simp only
  split
  · rw [registry_attentive]
    exact .refl _
  · have hother : BagRef.standalone 1 ≠ .standalone 0 := by decide
    simp only [setAttribute, registry_deliver_attentive]
    exact .setBag hother _ _

end Observers

/-- An empty bag with two listeners, and one with a value that only the first listens to. -/
def nursery : World (List AttributeEvent) where
  registry := { Registry.empty with
    bags := ⟨#[⟨∅, [⟨0⟩, ⟨1⟩]⟩,
      ⟨((∅ : Bag).store stranger.slot ⟨.first, ()⟩).2.values, [⟨0⟩]⟩]⟩ }
  client := []

/-- Values of both types are stored in the first bag. -/
def lookalikes : World (List AttributeEvent) :=
  ((nursery.setAttribute .attentive .nothing (.standalone 0) (twin .first) ()).2.setAttribute
    .attentive .nothing (.standalone 0) (twin .second) ()).2

/-- A value is stored in the first bag, and in response the second listener stores one in the other
bag. -/
def strayed : World (List AttributeEvent) :=
  (nursery.setAttribute .straying .nothing (.standalone 0) (twin .first) ()).2

/-- Two values of one name that are printed alike contradict each other, and so does what happens to
another bag. -/
theorem misleading_events :
    (nursery.registry.bag (.standalone 0)).Registers ⟨0⟩ ∧
      (nursery.registry.bag (.standalone 0)).values = ∅ ∧ nursery.client = [] ∧
      Observers.attentive.Heeds [⟨0⟩, ⟨1⟩] (Spared (.standalone 0) ⟨0⟩) ∧
      lookalikes.client = [⟨"twin", "Twin", .added⟩, ⟨"twin", "Twin", .added⟩] ∧
      mirror lookalikes.client = none ∧
      Observers.straying.Heeds [⟨0⟩, ⟨1⟩] (Spared (.standalone 0) ⟨0⟩) ∧
      strayed.client = [⟨"twin", "Twin", .added⟩, ⟨"stranger", "Twin", .changed⟩] ∧
      mirror strayed.client = none := by
  refine ⟨by decide, rfl, rfl, Observers.attentive_spares _, ?_, ?_, Observers.straying_spares _,
    ?_, ?_⟩
  all_goals decide +kernel

end Lookalikes

end EntityForest
