import EntityForest.Attribute.View
import EntityForest.Proofs.Tables
import Mathlib.Data.Finmap
import Mathlib.Data.Multiset.Sort
import Mathlib.Data.String.Basic

/-! # Bags as finite maps

A bag keeps values of all types in one table and finds out on reading whether a value has the type
that is asked for. To its users it is a finite map that has at each slot a value of the type of the
slot, and nothing is ever found to have another one. -/

namespace EntityForest

variable [ValueTypes]

/-- A finite map with a value of the right type at each slot. -/
abbrev AttributeMap := Finmap fun slot : Slot => slot.type.Carrier

namespace AttributeMap

theorem erase_of_not_mem {m : AttributeMap} {slot : Slot} (h : slot ∉ m) : m.erase slot = m := by
  refine Finmap.ext_lookup fun j => ?_
  by_cases hj : j = slot
  · rw [hj, Finmap.lookup_erase, Finmap.lookup_eq_none.2 h]
  · rw [Finmap.lookup_erase_ne hj]

theorem union_self (m : AttributeMap) : m ∪ m = m := by
  refine Finmap.ext_lookup fun j => ?_
  by_cases hj : j ∈ m
  · rw [Finmap.lookup_union_left hj]
  · rw [Finmap.lookup_union_right hj]

/-- The change that a value makes which is stored over these contents. -/
def storing (m : AttributeMap) (slot : Slot) : SlotChange :=
  ⟨slot, if slot ∈ m then .changed else .added⟩

end AttributeMap

/-- The table has the values of a finite map, each with the type of its slot. -/
def Table.Lists (t : Table Slot Value) (m : AttributeMap) : Prop :=
  ∀ slot, t.find? slot = (m.lookup slot).map (Value.mk slot.type)

namespace Table.Lists

variable {t u : Table Slot Value} {m n : AttributeMap}

theorem empty : (∅ : Table Slot Value).Lists ∅ := fun slot => by
  rw [Finmap.lookup_empty, find?_empty, Option.map_none]

theorem mem_iff (h : t.Lists m) {slot : Slot} : slot ∈ t ↔ slot ∈ m := by
  rw [← isSome_find?, h, Option.isSome_map, Finmap.lookup_isSome]

/-- No value is hidden by its type. -/
theorem get (h : t.Lists m) {type : ValueType} (k : Key type) :
    (t.find? k.slot).bind (Value.as? · type) = m.lookup k.slot := by
  rw [h]
  cases m.lookup k.slot with
  | none => rfl
  | some v => exact Value.as?_mk type v

theorem keys (h : t.Lists m) : m.keys.val = (t.keys : Multiset Slot) := by
  refine (Multiset.Nodup.ext m.keys.nodup (Multiset.coe_nodup.2 t.nodup_keys)).2 fun slot => ?_
  rw [Finset.mem_val, Finmap.mem_keys, Multiset.mem_coe, ← mem_def, h.mem_iff]

theorem size (h : t.Lists m) : t.size = m.keys.card := by
  rw [Finset.card_def, h.keys, Multiset.coe_card, length_keys]

theorem insert (h : t.Lists m) (slot : Slot) (v : slot.type.Carrier) :
    (t.insert slot ⟨slot.type, v⟩).Lists (m.insert slot v) := by
  intro j
  rw [find?_insert]
  split
  · rename_i hj
    rw [hj, Finmap.lookup_insert, Option.map_some]
  · rename_i hj
    rw [Finmap.lookup_insert_of_ne m hj, h]

theorem erase (h : t.Lists m) (slot : Slot) : (t.erase slot).Lists (m.erase slot) := by
  intro j
  rw [find?_erase]
  split
  · rename_i hj
    rw [hj, Finmap.lookup_erase, Option.map_none]
  · rename_i hj
    rw [Finmap.lookup_erase_ne hj, h]

/-- The values of another table are those of its map, wherever it has one. -/
theorem insertEach (h : t.Lists m) (k : u.Lists n) :
    (u.entries.foldl (fun t p => t.insert p.1 p.2) t).Lists (n ∪ m) := by
  intro slot
  by_cases hslot : slot ∈ n
  · obtain ⟨v, hv⟩ := Finmap.mem_iff.1 hslot
    have hfound : u.find? slot = some ⟨slot.type, v⟩ := by
      rw [k, hv, Option.map_some]
    rw [Finmap.lookup_union_left hslot, hv, Option.map_some]
    refine find?_foldl_insert_of_mem Prod.fst Prod.snd ⟨_, find?_eq_some_iff.1 hfound, rfl⟩ ?_ t
    rintro ⟨j, x⟩ hp rfl
    exact Option.some.inj ((find?_eq_some_iff.2 hp).symm.trans hfound)
  · rw [Finmap.lookup_union_right hslot, ← h]
    refine find?_foldl_insert_of_not_mem Prod.fst Prod.snd ?_ t
    rintro ⟨j, x⟩ hp rfl
    exact hslot (k.mem_iff.1 (mem_of_find? (find?_eq_some_iff.2 hp)))

end Table.Lists

/-! ## Questions -/

/-- What can be asked of a bag or of a view. -/
inductive BagQuestion where
  | get {type : ValueType} (k : Key type)
  | contains {type : ValueType} (k : Key type)
  | size
  | names

namespace BagQuestion

def Answer : BagQuestion → Type
  | @get _ type _ => Option type.Carrier
  | contains _ => Bool
  | size => Nat
  | names => List String

def ofBag (b : Bag) : (q : BagQuestion) → q.Answer
  | get k => b.get k
  | contains k => b.contains k
  | size => b.size
  | names => b.names

def ofView (v : AttributeView) (r : Registry) : (q : BagQuestion) → q.Answer
  | get k => v.get r k
  | contains k => v.contains r k
  | size => v.size r
  | names => v.names r

/-- The answers of a finite map. A name is listed once for each slot that has it. -/
def ofMap (m : AttributeMap) : (q : BagQuestion) → q.Answer
  | get k => m.lookup k.slot
  | contains k => (m.lookup k.slot).isSome
  | size => m.keys.card
  | names => (m.keys.val.map Slot.name).sort

theorem ofView_eq (v : AttributeView) (r : Registry) (q : BagQuestion) :
    q.ofView v r = q.ofBag (v.contents r) := by
  cases q <;> rfl

end BagQuestion

/-! ## Sheets -/

/-- A bag as its users know it: its contents, and its listeners in the order of registration. -/
structure Sheet where
  contents : AttributeMap
  listeners : List AttributeListenerRef
  distinct : listeners.Nodup

namespace Sheet

def blank : Sheet := ⟨∅, [], List.nodup_nil⟩

def fill (sheet : Sheet) (contents : AttributeMap) : Sheet := { sheet with contents }

def listen (sheet : Sheet) (l : AttributeListenerRef) : Sheet :=
  if h : l ∈ sheet.listeners then sheet
  else ⟨sheet.contents, sheet.listeners ++ [l], by
    rw [← List.concat_eq_append]
    exact sheet.distinct.concat h⟩

def unlisten (sheet : Sheet) (l : AttributeListenerRef) : Sheet :=
  ⟨sheet.contents, sheet.listeners.erase l, sheet.distinct.erase l⟩

def unlistenAll (sheet : Sheet) : Sheet := ⟨sheet.contents, [], List.nodup_nil⟩

end Sheet

namespace Bag

/-- The bag has the contents and the listeners of the sheet. -/
structure Shows (b : Bag) (sheet : Sheet) : Prop where
  values : b.values.Lists sheet.contents
  listeners : b.listeners = sheet.listeners

theorem shows_empty : (∅ : Bag).Shows .blank := ⟨.empty, rfl⟩

theorem listeners_storeEach (b : Bag) (entries : List (Slot × Value)) :
    (b.storeEach entries).2.listeners = b.listeners := by
  induction entries generalizing b with
  | nil => rfl
  | cons p rest ih => rw [storeEach, ih, listeners_store]

/-- What is stored at one slot does not fill another one. -/
theorem changes_storeEach {entries : List (Slot × Value)} (hn : (entries.map Prod.fst).Nodup)
    (b : Bag) : (b.storeEach entries).1 =
      entries.map fun p => ⟨p.1, if p.1 ∈ b.values then .changed else .added⟩ := by
  induction entries generalizing b with
  | nil => rfl
  | cons p rest ih =>
    rw [List.map_cons, List.nodup_cons] at hn
    change (b.store p.1 p.2).1 :: ((b.store p.1 p.2).2.storeEach rest).1 = _
    rw [ih hn.2, List.map_cons]
    refine congrArg _ (List.map_congr_left fun q hq => ?_)
    have hne : q.1 ≠ p.1 := fun heq => hn.1 (heq ▸ List.mem_map_of_mem hq)
    simp only [values_store, Table.mem_insert, hne, false_or]

namespace Shows

variable {b : Bag} {sheet : Sheet} (h : b.Shows sheet)

include h

/-- A bag answers as a finite map does. -/
theorem answer (q : BagQuestion) : q.ofBag b = q.ofMap sheet.contents := by
  cases q with
  | get k => exact h.values.get k
  | contains k =>
    change decide (k.slot ∈ b.values) = (sheet.contents.lookup k.slot).isSome
    rw [Bool.eq_iff_iff, decide_eq_true_eq, Finmap.lookup_isSome, h.values.mem_iff]
  | size => exact h.values.size
  | names =>
    change b.names = (sheet.contents.keys.val.map Slot.name).sort
    rw [h.values.keys, Multiset.map_coe, Multiset.coe_sort, names]

theorem store (slot : Slot) (v : slot.type.Carrier) :
    (b.store slot ⟨slot.type, v⟩).2.Shows (sheet.fill (sheet.contents.insert slot v)) :=
  ⟨h.values.insert slot v, h.listeners⟩

theorem change_store (slot : Slot) (v : Value) :
    (b.store slot v).1 = sheet.contents.storing slot := by
  simp only [Bag.store, AttributeMap.storing, h.values.mem_iff]

theorem clear (slot : Slot) :
    (b.clear slot).Shows (sheet.fill (sheet.contents.erase slot)) :=
  ⟨h.values.erase slot, h.listeners⟩

theorem addListener (l : AttributeListenerRef) :
    (b.addListener l).1 = decide (l ∉ sheet.listeners) ∧
      (b.addListener l).2.Shows (sheet.listen l) := by
  simp only [Bag.addListener, Sheet.listen, h.listeners]
  split
  · rename_i hl
    exact ⟨by simp [hl], h⟩
  · rename_i hl
    exact ⟨by simp [hl], h.values, rfl⟩

theorem removeListener (l : AttributeListenerRef) :
    (b.removeListener l).1 = decide (l ∈ sheet.listeners) ∧
      (b.removeListener l).2.Shows (sheet.unlisten l) := by
  have hkept : b.listeners.filter (· ≠ l) = sheet.listeners.erase l := by
    rw [h.listeners, sheet.distinct.erase_eq_filter]
    refine List.filter_congr fun x _ => ?_
    by_cases hx : x = l <;> simp [hx]
  refine ⟨?_, h.values, hkept⟩
  change decide ((b.listeners.filter (· ≠ l)).length ≠ b.listeners.length) = _
  rw [hkept, h.listeners, decide_eq_decide]
  by_cases hl : l ∈ sheet.listeners
  · have hpos := List.length_pos_of_mem hl
    rw [List.length_erase_of_mem hl]
    exact iff_of_true (by omega) hl
  · rw [List.erase_of_not_mem hl]
    exact iff_of_false (fun hne => hne rfl) hl

/-- Storing the values of another table puts its map before this one. -/
theorem storeEach {u : Table Slot Value} {n : AttributeMap} (k : u.Lists n) :
    (b.storeEach u.entries).2.Shows (sheet.fill (n ∪ sheet.contents)) where
  values := by
    rw [values_storeEach]
    exact h.values.insertEach k
  listeners := by
    rw [listeners_storeEach, h.listeners]
    rfl

theorem changes_storeEach (u : Table Slot Value) :
    (b.storeEach u.entries).1 = u.keys.map sheet.contents.storing := by
  rw [Bag.changes_storeEach u.nodup, Table.keys, List.map_map]
  refine List.map_congr_left fun p _ => ?_
  simp only [Function.comp_apply, AttributeMap.storing, h.values.mem_iff]

theorem clearListeners : b.clearListeners.Shows sheet.unlistenAll := ⟨h.values, rfl⟩

theorem ofValues : (Bag.ofValues b.values).Shows (Sheet.blank.fill sheet.contents) :=
  ⟨h.values, rfl⟩

end Shows

end Bag

end EntityForest
