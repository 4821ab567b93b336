import EntityForest.Attribute.Listener
import EntityForest.Proofs.Effects
import EntityForest.Proofs.Sheets
import EntityForest.World.Attributes
import Mathlib.Data.List.ProdSigma
import Mathlib.Logic.Function.Basic
import Mathlib.Logic.Relation

/-! # What is done with bags

Everything that is done with a bag is done at once, and after that its listeners are told. What is
done can be said of finite maps alone: what becomes of them, what the answer is, which changes have
been made, and who is told. -/

namespace EntityForest

open Relation (ReflTransGen)

variable [ValueTypes]

/-- The sheets of all bags. -/
abbrev Sheets := BagRef → Sheet

/-- Each bag has the contents and the listeners of its sheet. -/
def Registry.Shows (r : Registry) (sheets : Sheets) : Prop := ∀ b, (r.bag b).Shows (sheets b)

/-- What can be done with bags. The bag of a new entity is seeded with the values of another one. -/
inductive BagDeed where
  | set {type : ValueType} (b : BagRef) (k : Key type) (v : type.Carrier)
  | remove {type : ValueType} (b : BagRef) (k : Key type)
  | copy (target source : BagRef)
  | seed (e : EntityRef) (source : BagRef)
  | ask (b : BagRef) (q : BagQuestion)
  | look (view : AttributeView) (q : BagQuestion)
  | listen (b : BagRef) (l : AttributeListenerRef)
  | unlisten (b : BagRef) (l : AttributeListenerRef)
  | unlistenAll (b : BagRef)

namespace BagDeed

def Answer : BagDeed → Type
  | @set _ type _ _ _ | @remove _ type _ _ => Option type.Carrier
  | copy .. => Nat
  | ask _ q | look _ q => q.Answer
  | listen .. | unlisten .. => Bool
  | seed .. | unlistenAll _ => Unit

def perform {χ : Type} (obs : Observers χ) (holds : Holds) (w : World χ) :
    (deed : BagDeed) → deed.Answer × World χ
  | set b k v => w.setAttribute obs holds b k v
  | remove b k => w.removeAttribute obs holds b k
  | copy target source => w.copyAttributes obs holds target source
  | seed e source =>
    let bag := Bag.ofValues (w.registry.bag source).values
    ((), { w with registry := w.registry.setBag (.ofEntity e) bag })
  | ask b q => (q.ofBag (w.registry.bag b), w)
  | look view q => (q.ofView view w.registry, w)
  | listen b l =>
    let (answer, bag) := (w.registry.bag b).addListener l
    (answer, { w with registry := w.registry.setBag b bag })
  | unlisten b l =>
    let (answer, bag) := (w.registry.bag b).removeListener l
    (answer, { w with registry := w.registry.setBag b bag })
  | unlistenAll b =>
    ((), { w with registry := w.registry.setBag b (w.registry.bag b).clearListeners })

/-! ## On finite maps -/

/-- What becomes of the sheets. -/
def apply (sheets : Sheets) : BagDeed → Sheets
  | set b k v =>
    Function.update sheets b ((sheets b).fill ((sheets b).contents.insert k.slot v))
  | remove b k => Function.update sheets b ((sheets b).fill ((sheets b).contents.erase k.slot))
  | copy target source => Function.update sheets target
    ((sheets target).fill ((sheets source).contents ∪ (sheets target).contents))
  | seed e source =>
    Function.update sheets (.ofEntity e) (Sheet.blank.fill (sheets source).contents)
  | ask .. | look .. => sheets
  | listen b l => Function.update sheets b ((sheets b).listen l)
  | unlisten b l => Function.update sheets b ((sheets b).unlisten l)
  | unlistenAll b => Function.update sheets b (sheets b).unlistenAll

/-- The answer, which tells of the time before the deed. -/
def answer (sheets : Sheets) : (deed : BagDeed) → deed.Answer
  | set b k _ => (sheets b).contents.lookup k.slot
  | remove b k => (sheets b).contents.lookup k.slot
  | copy target source =>
    (if target = source then 0 else (sheets source).contents.keys.card : Nat)
  | seed .. | unlistenAll _ => ()
  | ask b q => q.ofMap (sheets b).contents
  | look view q => q.ofMap (view.bag.elim .blank sheets).contents
  | listen b l => decide (l ∉ (sheets b).listeners)
  | unlisten b l => decide (l ∈ (sheets b).listeners)

/-- These are the changes that the deed makes to slots, in an order in which it may make them. -/
def Commits (sheets : Sheets) (changes : List SlotChange) : BagDeed → Prop
  | set b k _ => changes = [(sheets b).contents.storing k.slot]
  | remove b k => changes = if k.slot ∈ (sheets b).contents then [⟨k.slot, .removed⟩] else []
  | copy target source =>
    if target = source then changes = []
    else ∃ slots : List Slot, slots.Nodup ∧
      (∀ slot, slot ∈ slots ↔ slot ∈ (sheets source).contents) ∧
      changes = slots.map (sheets target).contents.storing
  | _ => changes = []

/-- Those who are told of the changes: the listeners of the bag that is written to, as they are
registered at that time. -/
def audience (sheets : Sheets) : BagDeed → List AttributeListenerRef
  | set b _ _ | remove b _ | copy b _ => (sheets b).listeners
  | _ => []

theorem apply_remove_of_not_mem {sheets : Sheets} {type : ValueType} {b : BagRef} {k : Key type}
    (h : k.slot ∉ (sheets b).contents) : (remove b k).apply sheets = sheets := by
  rw [apply, AttributeMap.erase_of_not_mem h]
  exact Function.update_eq_self b sheets

theorem apply_copy_self (sheets : Sheets) (b : BagRef) : (copy b b).apply sheets = sheets := by
  rw [apply, AttributeMap.union_self]
  exact Function.update_eq_self b sheets

theorem nodup_audience (sheets : Sheets) (deed : BagDeed) : (deed.audience sheets).Nodup := by
  cases deed with
  | set b | remove b | copy b => exact (sheets b).distinct
  | _ => exact List.nodup_nil

/-- No change is made twice by one deed. -/
theorem Commits.nodup {deed : BagDeed} {sheets : Sheets} {changes : List SlotChange}
    (h : deed.Commits sheets changes) : changes.Nodup := by
  cases deed with
  | set b k v =>
    rw [show changes = _ from h]
    exact List.nodup_singleton _
  | remove b k =>
    rw [show changes = _ from h]
    split
    · exact List.nodup_singleton _
    · exact List.nodup_nil
  | copy target source =>
    rw [Commits] at h
    split at h
    · rw [h]
      exact List.nodup_nil
    · obtain ⟨slots, hslots, -, rfl⟩ := h
      exact hslots.map fun i j hij => congrArg SlotChange.slot hij
  | _ =>
    rw [show changes = [] from h]
    exact List.nodup_nil

theorem Commits.nodup_due {deed : BagDeed} {sheets : Sheets} {changes : List SlotChange}
    (h : deed.Commits sheets changes) : (changes ×ˢ deed.audience sheets).Nodup :=
  h.nodup.product (deed.nodup_audience sheets)

end BagDeed

/-! ## On bags -/

theorem Registry.shows_empty : Registry.empty.Shows fun _ => .blank := by
  rintro (i | e) <;> exact Bag.shows_empty

namespace Registry.Shows

variable {r s : Registry} {sheets : Sheets}

theorem of_bag (h : r.Shows sheets) (hbag : ∀ b, s.bag b = r.bag b) : s.Shows sheets :=
  fun b => by
    rw [hbag]
    exact h b

theorem setBag (h : r.Shows sheets) (b : BagRef) {bag : Bag} {sheet : Sheet}
    (hbag : bag.Shows sheet) : (r.setBag b bag).Shows (Function.update sheets b sheet) := by
  intro c
  rw [bag_setBag]
  split
  · rename_i hc
    rw [hc, Function.update_self]
    exact hbag
  · rename_i hc
    rw [Function.update_of_ne hc]
    exact h c

/-- A view shows its bag, or an empty one. -/
theorem view (h : r.Shows sheets) (view : AttributeView) :
    (view.contents r).Shows (view.bag.elim .blank sheets) := by
  obtain ⟨_ | b⟩ := view
  · exact Bag.shows_empty
  · exact h b

end Registry.Shows

section Perform

variable {χ : Type} (obs : Observers χ) (holds : Holds) {w : World χ} {sheets : Sheets}

/-- Tells listeners about changes in the order of a list. -/
def World.deliverDue (due : List (SlotChange × AttributeListenerRef)) (w : World χ) : World χ :=
  due.foldl (fun w p => obs.bag holds p.2 p.1.event w) w

theorem World.deliverDue_product (changes : List SlotChange)
    (listeners : List AttributeListenerRef) (w : World χ) :
    w.deliverDue obs holds (changes ×ˢ listeners) =
      changes.foldl (fun w change => deliver obs holds listeners change w) w := by
  induction changes generalizing w with
  | nil => rfl
  | cons change changes ih =>
    rw [deliverDue, List.product_cons, List.foldl_append, List.foldl_map]
    exact ih _

/-- A deed is done at once: its answer and what it leaves are those of finite maps. After that its
changes are told one after the other. -/
structure BagDeed.Performed (sheets : Sheets) (w : World χ) (deed : BagDeed)
    (result : deed.Answer × World χ) : Prop where
  answered : result.1 = deed.answer sheets
  told : ∃ changes r holds, deed.Commits sheets changes ∧ r.Shows (deed.apply sheets) ∧
    result.2 = { w with registry := r }.deliverDue obs holds (changes ×ˢ deed.audience sheets)

namespace BagDeed

variable {obs}

/-- Nobody is told of a deed that changes no slot. -/
theorem Performed.quiet (deed : BagDeed) {r : Registry} (commits : deed.Commits sheets [])
    (shown : r.Shows (deed.apply sheets)) {answer : deed.Answer}
    (answered : answer = deed.answer sheets) :
    deed.Performed obs sheets w (answer, { w with registry := r }) :=
  ⟨answered, [], r, .nothing, commits, shown, rfl⟩

variable (holds : Holds) (shown : w.registry.Shows sheets)

include shown

theorem performed_set {type : ValueType} (b : BagRef) (k : Key type) (v : type.Carrier) :
    (set b k v).Performed obs sheets w (w.setAttribute obs holds b k v) where
  answered := (shown b).answer (.get k)
  told := by
    refine ⟨_, _, holds.keepOwner b, rfl, shown.setBag b ((shown b).store k.slot v), ?_⟩
    rw [World.deliverDue_product, audience, ← (shown b).listeners,
      ← (shown b).change_store k.slot ⟨type, v⟩]
    rfl

theorem performed_remove {type : ValueType} (b : BagRef) (k : Key type) :
    (remove b k).Performed obs sheets w (w.removeAttribute obs holds b k) := by
  have hget := (shown b).values.get k
  have hmem : k.slot ∈ (w.registry.bag b).values ↔ k.slot ∈ (sheets b).contents :=
    (shown b).values.mem_iff
  unfold World.removeAttribute
  simp only
  split
  · rename_i hnone
    have habsent : k.slot ∉ (sheets b).contents := hmem.not.1 (Table.find?_eq_none_iff.1 hnone)
    refine .quiet (remove b k) ?_ ?_ (Finmap.lookup_eq_none.2 habsent).symm
    · rw [Commits, if_neg habsent]
    · rwa [apply_remove_of_not_mem habsent]
  · rename_i v hsome
    rw [hsome] at hget
    refine ⟨hget, [⟨k.slot, .removed⟩], _, holds.keepOwner b, ?_,
      shown.setBag b ((shown b).clear k.slot), ?_⟩
    · rw [Commits, if_pos (hmem.1 (Table.mem_of_find? hsome))]
    · rw [World.deliverDue_product, audience, ← (shown b).listeners]
      rfl

theorem performed_copy (target source : BagRef) :
    (copy target source).Performed obs sheets w (w.copyAttributes obs holds target source) := by
  unfold World.copyAttributes
  split
  · rename_i heq
    subst heq
    refine .quiet (copy target target) ?_ ?_ (if_pos rfl).symm
    · rw [Commits, if_pos rfl]
    · rwa [apply_copy_self]
  · rename_i hne
    have hsource := (shown source).values
    refine ⟨hsource.size.trans (if_neg hne).symm,
      (w.registry.bag source).values.keys.map (sheets target).contents.storing, _,
      (holds.keepOwner source).keepOwner target, ?_,
      shown.setBag target ((shown target).storeEach hsource), ?_⟩
    · rw [Commits, if_neg hne]
      exact ⟨_, (w.registry.bag source).values.nodup_keys, fun _ => hsource.mem_iff, rfl⟩
    · rw [World.deliverDue_product, audience, ← (shown target).listeners,
        ← (shown target).changes_storeEach]
      rfl

theorem performed (deed : BagDeed) : deed.Performed obs sheets w (deed.perform obs holds w) := by
  cases deed with
  | set b k v => exact performed_set holds shown b k v
  | remove b k => exact performed_remove holds shown b k
  | copy target source => exact performed_copy holds shown target source
  | seed e source =>
    exact .quiet (seed e source) rfl (shown.setBag _ (shown source).ofValues) rfl
  | ask b q => exact .quiet (ask b q) rfl shown ((shown b).answer q)
  | look view q =>
    refine .quiet (look view q) rfl shown ?_
    rw [BagQuestion.ofView_eq]
    exact (shown.view view).answer q
  | listen b l =>
    obtain ⟨hanswer, hbag⟩ := (shown b).addListener l
    exact .quiet (listen b l) rfl (shown.setBag b hbag) hanswer
  | unlisten b l =>
    obtain ⟨hanswer, hbag⟩ := (shown b).removeListener l
    exact .quiet (unlisten b l) rfl (shown.setBag b hbag) hanswer
  | unlistenAll b =>
    exact .quiet (unlistenAll b) rfl (shown.setBag b (shown b).clearListeners) rfl

end BagDeed

end Perform

end EntityForest
