import EntityForest.Attribute.Plain
import EntityForest.Proofs.Tidings

/-! # Copies at once and one by one

Copying all values of a bag comes to the same as setting each of them, in whatever order: the bag is
filled alike, and its listeners hear of the same changes. Only, of a copy nobody hears anything
before all of it has been made. -/

namespace EntityForest

open Registry World

section

variable [ValueTypes] {χ : Type}

/-- Sets values one after the other. -/
def World.setEach (obs : Observers χ) (holds : Holds) (b : BagRef) (entries : List (Slot × Value))
    (w : World χ) : World χ :=
  entries.foldl
    (fun w p => (w.setAttribute obs holds b (⟨p.1.name⟩ : Key p.2.type) p.2.data).2) w

namespace Table.Lists

variable {t u : Table Slot Value} {m : AttributeMap} (h : t.Lists m)

include h

/-- A map can be listed in any order. -/
theorem of_perm (hperm : u.entries.Perm t.entries) : u.Lists m := by
  intro slot
  rw [← h slot]
  ext v
  rw [find?_eq_some_iff, find?_eq_some_iff, hperm.mem_iff]

theorem type_eq {p : Slot × Value} (hp : p ∈ t.entries) : p.2.type = p.1.type := by
  have hfound := h p.1
  rw [find?_eq_some_iff.2 hp] at hfound
  obtain ⟨v, -, hv⟩ := Option.map_eq_some_iff.1 hfound.symm
  rw [← hv]

end Table.Lists

/-! ## What is stored and what is heard -/

/-- Entries have been stored in a bag, and every listener of the bag has been told what each of them
has done. -/
structure Stored (b : BagRef) (entries : List (Slot × Value)) (w w' : World (χ × List Tiding))
    (tidings : List Tiding) : Prop where
  logged : w'.client.2 = w.client.2 ++ tidings
  stored : w'.registry.bag b = ((w.registry.bag b).storeEach entries).2
  heard : ∀ l, (w.registry.bag b).listeners.count l = 1 →
    Tiding.heardBy l tidings = ((w.registry.bag b).storeEach entries).1.map SlotChange.event
  unheard : ∀ l, l ∉ (w.registry.bag b).listeners → Tiding.heardBy l tidings = []

theorem Stored.cons {b : BagRef} {p : Slot × Value} {entries : List (Slot × Value)}
    {w v w' : World (χ × List Tiding)} {first more : List Tiding} (h : Stored b [p] w v first)
    (k : Stored b entries v w' more) : Stored b (p :: entries) w w' (first ++ more) := by
  have hv : v.registry.bag b = ((w.registry.bag b).store p.1 p.2).2 := h.stored
  constructor
  · rw [k.logged, h.logged, List.append_assoc]
  · rw [k.stored, hv]
    rfl
  · intro l hl
    rw [Tiding.heardBy_append, h.heard l hl, k.heard l (by rwa [hv]), hv]
    rfl
  · intro l hl
    rw [Tiding.heardBy_append, h.unheard l hl, k.unheard l (by rwa [hv])]
    rfl

section Storing

variable {obs : Observers χ} {b : BagRef} {listeners : List AttributeListenerRef}
  (spares : obs.Heeds listeners fun r s => s.bag b = r.bag b)

include spares

/-- All of it is there before anybody is told. -/
theorem stored_storeListed (holds : Holds) (entries : List (Slot × Value))
    {w : World (χ × List Tiding)} (hlisteners : (w.registry.bag b).listeners = listeners) :
    ∃ tidings, Stored b entries w (w.storeListed obs.noted holds b entries) tidings ∧
      ∀ t ∈ tidings, t.seen.bag b = ((w.registry.bag b).storeEach entries).2 := by
  subst hlisteners
  have hspread := spread_deliverEach (R := fun r s => s.bag b = r.bag b) (fun _ => rfl)
    (fun h k => k.trans h) spares (holds.keepOwner b) ((w.registry.bag b).storeEach entries).1
    { w with registry := w.registry.setBag b ((w.registry.bag b).storeEach entries).2 }
  obtain ⟨tidings, hlogged, hdue, hseen, hkept⟩ := hspread
  refine ⟨tidings, ⟨hlogged, hkept.trans (bag_setBag_self ..), ?_, ?_⟩, ?_⟩
  · intro l hl
    exact Tiding.heardBy_eq_events hdue hl
  · intro l hl
    exact Tiding.heardBy_eq_nil hdue hl
  · intro t ht
    exact (hseen t ht).trans (bag_setBag_self ..)

theorem stored_setEach (holds : Holds) {entries : List (Slot × Value)}
    (typed : ∀ p ∈ entries, p.2.type = p.1.type) {w : World (χ × List Tiding)}
    (hlisteners : (w.registry.bag b).listeners = listeners) :
    ∃ tidings, Stored b entries w (w.setEach obs.noted holds b entries) tidings := by
  induction entries generalizing w with
  | nil => exact ⟨[], (List.append_nil _).symm, rfl, fun _ _ => rfl, fun _ _ => rfl⟩
  | cons p entries ih =>
    obtain ⟨⟨name, type⟩, ⟨type', data⟩⟩ := p
    obtain ⟨htype, hrest⟩ := List.forall_mem_cons.1 typed
    change type' = type at htype
    subst htype
    -- A single value is stored as a list of one.
    obtain ⟨first, hfirst, -⟩ := stored_storeListed spares holds [(⟨name, type'⟩, ⟨type', data⟩)]
      hlisteners
    obtain ⟨more, hmore⟩ := ih hrest
      ((congrArg Bag.listeners hfirst.stored).trans
        (((w.registry.bag b).listeners_storeEach _).trans hlisteners))
    exact ⟨first ++ more, hfirst.cons hmore⟩

end Storing

/-! ## Both ways compared -/

/-- A bag with this sheet has been given all values of a map, and each of its listeners has been
told of each slot of the map once, in some order. -/
structure Copied (b : BagRef) (sheet : Sheet) (m : AttributeMap) (w w' : World (χ × List Tiding))
    (tidings : List Tiding) : Prop where
  logged : w'.client.2 = w.client.2 ++ tidings
  filled : (w'.registry.bag b).Shows (sheet.fill (m ∪ sheet.contents))
  heard : ∀ l ∈ sheet.listeners, (Tiding.heardBy l tidings : Multiset AttributeEvent) =
    m.keys.val.map fun slot => (sheet.contents.storing slot).event
  unheard : ∀ l, l ∉ sheet.listeners → Tiding.heardBy l tidings = []

theorem Stored.copied {b : BagRef} {u : Table Slot Value} {w w' : World (χ × List Tiding)}
    {tidings : List Tiding} {sheet : Sheet} {m : AttributeMap} (h : Stored b u.entries w w' tidings)
    (shown : (w.registry.bag b).Shows sheet) (lists : u.Lists m) :
    Copied b sheet m w w' tidings where
  logged := h.logged
  filled := by
    rw [h.stored]
    exact shown.storeEach lists
  heard l hl := by
    have once : (w.registry.bag b).listeners.count l = 1 := by
      rw [shown.listeners]
      exact List.count_eq_one_of_mem sheet.distinct hl
    rw [h.heard l once, shown.changes_storeEach, lists.keys, Multiset.map_coe, List.map_map]
    rfl
  unheard l hl := h.unheard l (by rwa [shown.listeners])

/-- To copy a bag into another one and to set each of its values there, in any order, fills that bag
alike and tells its listeners of the same changes. When they are told of a copy, all of it is there,
and nothing is changed in any other bag but by the listeners themselves. -/
theorem copy_agrees_with_setting_each {target source : BagRef} (distinct : target ≠ source)
    {w : World (χ × List Tiding)} {sheets : Sheets} (shown : w.registry.Shows sheets)
    {obs : Observers χ}
    (spares : obs.Heeds (sheets target).listeners fun r s => s.bag target = r.bag target)
    (holds held : Holds) {order : List (Slot × Value)}
    (all : order.Perm (w.registry.bag source).values.entries) :
    let copied := w.copyAttributes obs.noted holds target source
    let m := (sheets source).contents
    copied.1 = m.keys.card ∧
      (∃ tidings, Copied target (sheets target) m w copied.2 tidings ∧ ∀ t ∈ tidings,
        (t.seen.bag target).Shows ((sheets target).fill (m ∪ (sheets target).contents))) ∧
      (∃ tidings, Copied target (sheets target) m w (w.setEach obs.noted held target order)
        tidings) ∧
      ∀ b ≠ target, ∀ P : Bag → Prop,
        obs.Heeds (sheets target).listeners (fun r s => P (r.bag b) → P (s.bag b)) →
          P (w.registry.bag b) → P (copied.2.registry.bag b) := by
  intro copied m
  have htarget := shown target
  have hsource : (w.registry.bag source).values.Lists m := (shown source).values
  have hcopied : copied = ((w.registry.bag source).values.size,
      w.storeListed obs.noted (holds.keepOwner source) target
        (w.registry.bag source).values.entries) := if_neg distinct
  rw [hcopied]
  refine ⟨hsource.size, ?_, ?_, ?_⟩
  · obtain ⟨tidings, hstored, hseen⟩ := stored_storeListed spares (holds.keepOwner source)
      (w.registry.bag source).values.entries htarget.listeners
    refine ⟨tidings, hstored.copied htarget hsource, fun t ht => ?_⟩
    rw [hseen t ht]
    exact htarget.storeEach hsource
  · have hnodup : (order.map Prod.fst).Nodup :=
      (all.map Prod.fst).nodup_iff.2 (w.registry.bag source).values.nodup
    have hlists : (⟨order, hnodup⟩ : Table Slot Value).Lists m := hsource.of_perm all
    obtain ⟨tidings, hstored⟩ := stored_setEach spares held (fun _ hp => hlists.type_eq hp)
      htarget.listeners
    exact ⟨tidings, hstored.copied htarget hlists⟩
  · intro b hb P keeps hP
    rw [← htarget.listeners] at keeps
    obtain ⟨tidings, hspread⟩ := spread_deliverEach (R := fun r s => P (r.bag b) → P (s.bag b))
      (fun _ => id) (fun h k => k ∘ h) keeps ((holds.keepOwner source).keepOwner target) _
      { w with registry := w.registry.setBag target _ }
    refine hspread.kept ?_
    rwa [bag_setBag, if_neg hb]

end

open scoped PlainType

/-! ### A listener that writes elsewhere -/

def width : Key .u32 := ⟨"width"⟩

def wide : Key .bool := ⟨"width"⟩

def lent : Key .bool := ⟨"lent"⟩

/-- Whoever hears of a change leaves a note in the bag that is copied from. -/
def Observers.lending : Observers Unit where
  lifecycle _ _ _ w := (.ok (), w)
  bag _ _ _ w :=
    let noted := ((w.registry.bag (.standalone 1)).store lent.slot ⟨.bool, true⟩).2
    { w with registry := w.registry.setBag (.standalone 1) noted }
  slack _ := 0
  remains _ _ _ := true

theorem Observers.lending_spares (listeners : List AttributeListenerRef) :
    lending.Heeds listeners fun r s => s.bag (.standalone 0) = r.bag (.standalone 0) := by
  intro _ _ _ _ w
  have hother : BagRef.standalone 0 ≠ .standalone 1 := by decide
  simp only [lending, bag_setBag, if_neg hother]

/-- A bag with a listener, and another one that has values for the same slot and one more. -/
def shelves : World (Unit × List Tiding) where
  registry :=
    let first := (((∅ : Bag).addListener ⟨0⟩).2.store width.slot ⟨.u32, (1 : UInt32)⟩).2
    let second :=
      (((∅ : Bag).store wide.slot ⟨.bool, true⟩).2.store width.slot ⟨.u32, (2 : UInt32)⟩).2
    (Registry.empty.setBag (.standalone 0) first).setBag (.standalone 1) second
  client := ((), [])

def shelvesSheets : Sheets :=
  let first := (Sheet.blank.listen ⟨0⟩).fill (Finmap.insert width.slot (1 : UInt32) ∅)
  let second :=
    Sheet.blank.fill (Finmap.insert width.slot (2 : UInt32) (Finmap.insert wide.slot true ∅))
  Function.update (Function.update (fun _ => .blank) (.standalone 0) first) (.standalone 1) second

theorem shelves_shows : shelves.registry.Shows shelvesSheets := by
  have hfirst := (Bag.shows_empty.addListener ⟨0⟩).2.store width.slot (1 : UInt32)
  have hsecond := (Bag.shows_empty.store wide.slot true).store width.slot (2 : UInt32)
  exact (Registry.shows_empty.setBag (.standalone 0) hfirst).setBag (.standalone 1) hsecond

/-- The values are copied, and set in the opposite order. -/
theorem copy_agrees_with_setting_each_shelves :
    let copied := shelves.copyAttributes Observers.lending.noted .nothing (.standalone 0)
      (.standalone 1)
    let order := (shelves.registry.bag (.standalone 1)).values.entries.reverse
    let set := shelves.setEach Observers.lending.noted .nothing (.standalone 0) order
    (∃ tidings, Copied (.standalone 0) (shelvesSheets (.standalone 0))
        (shelvesSheets (.standalone 1)).contents shelves copied.2 tidings) ∧
      (∃ tidings, Copied (.standalone 0) (shelvesSheets (.standalone 0))
        (shelvesSheets (.standalone 1)).contents shelves set tidings) ∧
      copied.1 = 2 ∧
      Tiding.heardBy ⟨0⟩ copied.2.client.2 =
        [⟨"width", "bool", .added⟩, ⟨"width", "u32", .changed⟩] ∧
      Tiding.heardBy ⟨0⟩ set.client.2 =
        [⟨"width", "u32", .changed⟩, ⟨"width", "bool", .added⟩] := by
  intro copied order set
  have distinct : BagRef.standalone 0 ≠ .standalone 1 := by decide
  have all : order.Perm (shelves.registry.bag (.standalone 1)).values.entries :=
    List.reverse_perm _
  obtain ⟨-, ⟨told, hcopied, -⟩, hset, -⟩ := copy_agrees_with_setting_each distinct shelves_shows
    (Observers.lending_spares _) .nothing .nothing all
  exact ⟨⟨told, hcopied⟩, hset, by decide +kernel, by decide +kernel, by decide +kernel⟩

/-- What is copied from need not be as it was: its copy's listeners may write to it. -/
theorem not_unchanged_of_copied :
    (Observers.lending.Heeds (shelvesSheets (.standalone 0)).listeners
        fun r s => s.bag (.standalone 0) = r.bag (.standalone 0)) ∧
      (shelves.registry.bag (.standalone 1)).contains lent = false ∧
      ((shelves.copyAttributes Observers.lending.noted .nothing (.standalone 0)
        (.standalone 1)).2.registry.bag (.standalone 1)).contains lent = true :=
  ⟨Observers.lending_spares _, by decide +kernel, by decide +kernel⟩

end EntityForest
