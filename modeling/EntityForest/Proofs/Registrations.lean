import EntityForest.ListenerSet
import Mathlib.Data.Set.Card

/-! # Registered listeners

However a set of listeners has been edited, it holds each of those that were added after the last
edit that dropped them, and holds it once. That is why taking out one position removes a listener,
and why an event reaches nobody twice. -/

namespace EntityForest.ListenerSet

variable {α : Type} [DecidableEq α] {s : ListenerSet α}

/-! ## Single changes -/

theorem nodup_add (h : s.members.Nodup) (a : α) : (s.add a).2.members.Nodup := by
  by_cases ha : a ∈ s
  · rwa [add_of_mem ha]
  · rw [add_of_not_mem ha, ← List.concat_eq_append]
    exact h.concat (mt mem_def.2 ha)

theorem nodup_remove (h : s.members.Nodup) (a : α) : (s.remove a).2.members.Nodup :=
  (members_remove_perm s a).nodup_iff.2 (h.erase a)

theorem nodup_extend (h : s.members.Nodup) (as : List α) : (s.extend as).members.Nodup := by
  induction as generalizing s with
  | nil => exact h
  | cons a as ih => exact ih (nodup_add h a)

theorem mem_remove (h : s.members.Nodup) {a b : α} : b ∈ (s.remove a).2 ↔ b ≠ a ∧ b ∈ s := by
  rw [mem_def, (members_remove_perm s a).mem_iff, h.mem_erase_iff, mem_def]

theorem mem_extend {as : List α} {b : α} : b ∈ s.extend as ↔ b ∈ s ∨ b ∈ as := by
  induction as generalizing s with
  | nil => simp [extend]
  | cons a as ih =>
    rw [extend, List.foldl_cons, ← extend, ih, mem_add, List.mem_cons, or_assoc]

/-- To add a listener changes the set exactly if it was absent. -/
theorem fst_add_iff (a : α) : (s.add a).1 = true ↔ (s.add a).2 ≠ s := by
  by_cases ha : a ∈ s
  · simp [add_of_mem ha]
  · have hchanged : (s.add a).2 ≠ s := by
      intro heq
      exact ha (heq ▸ mem_add.2 (.inr rfl))
    rw [add_of_not_mem ha] at hchanged ⊢
    simp only [ne_eq, hchanged, not_false_iff]

/-- To remove a listener changes the set exactly if it was present. -/
theorem fst_remove_iff (h : s.members.Nodup) (a : α) :
    (s.remove a).1 = true ↔ (s.remove a).2 ≠ s := by
  by_cases ha : a ∈ s
  · have hchanged : (s.remove a).2 ≠ s := by
      intro heq
      exact ((mem_remove h).1 (heq.symm ▸ ha)).1 rfl
    obtain ⟨front, behind, hs, hfront⟩ := List.eq_append_cons_of_mem ha
    rw [remove_of_mem hs hfront] at hchanged ⊢
    simp only [ne_eq, hchanged, not_false_iff]
  · simp [remove_of_not_mem ha]

/-- What becomes of a list when the last element moves into the place of a removed one. -/
inductive SwapsOut (a : α) : List α → List α → Prop
  | absent {l} (h : a ∉ l) : SwapsOut a l l
  | last {front} : SwapsOut a (front ++ [a]) front
  | moved {front middle z} : SwapsOut a (front ++ a :: (middle ++ [z])) (front ++ z :: middle)

theorem swapsOut_remove (s : ListenerSet α) (a : α) :
    SwapsOut a s.members (s.remove a).2.members := by
  by_cases ha : a ∈ s
  · obtain ⟨front, behind, hs, hfront⟩ := List.eq_append_cons_of_mem ha
    rw [remove_of_mem hs hfront, hs]
    rcases List.eq_nil_or_concat' behind with rfl | ⟨middle, z, rfl⟩
    · rw [show lastToFront ([] : List α) = [] from rfl, List.append_nil]
      exact .last
    · rw [show lastToFront (middle ++ [z]) = z :: middle by simp [lastToFront]]
      exact .moved
  · rw [remove_of_not_mem ha]
    exact .absent ha

/-! ## Histories -/

/-- A change of a set of listeners. -/
inductive Edit (α : Type) where
  | add (a : α)
  | remove (a : α)
  | clear
  | extend (as : List α)

namespace Edit

def apply : Edit α → ListenerSet α → ListenerSet α
  | add a, s => (s.add a).2
  | remove a, s => (s.remove a).2
  | clear, _ => ∅
  | extend as, s => s.extend as

def Adds (a : α) : Edit α → Prop
  | add b => a = b
  | extend as => a ∈ as
  | remove _ | clear => False

def Drops (a : α) : Edit α → Prop
  | remove b => a = b
  | clear => True
  | add _ | extend _ => False

theorem nodup_apply (h : s.members.Nodup) (change : Edit α) : (change.apply s).members.Nodup := by
  cases change with
  | add a => exact nodup_add h a
  | remove a => exact nodup_remove h a
  | clear => exact List.nodup_nil
  | extend as => exact nodup_extend h as

theorem mem_apply (h : s.members.Nodup) {change : Edit α} {a : α} :
    a ∈ change.apply s ↔ change.Adds a ∨ a ∈ s ∧ ¬ change.Drops a := by
  cases change with
  | add b =>
    rw [apply, mem_add]
    simp only [Adds, Drops, not_false_iff, and_true, or_comm]
  | remove b =>
    rw [apply, mem_remove h]
    simp only [Adds, Drops, false_or, and_comm, ne_eq]
  | clear =>
    have hnone : a ∉ (∅ : ListenerSet α) := List.not_mem_nil
    simp only [apply, Adds, Drops, hnone, not_true_eq_false, and_false, or_self]
  | extend as =>
    rw [apply, mem_extend]
    simp only [Adds, Drops, not_false_iff, and_true, or_comm]

end Edit

/-- The set that edits make of an empty one. -/
def after (edits : List (Edit α)) : ListenerSet α := edits.foldl (fun s change => change.apply s) ∅

/-- The listener has been added, and no later edit has dropped it. -/
def Standing (edits : List (Edit α)) (a : α) : Prop :=
  ∃ before change later, edits = before ++ change :: later ∧ change.Adds a ∧
    ∀ next ∈ later, ¬ next.Drops a

omit [DecidableEq α] in
theorem not_standing_nil (a : α) : ¬ Standing [] a := by
  rintro ⟨before, change, later, heq, -⟩
  cases before <;> cases heq

omit [DecidableEq α] in
theorem standing_concat {edits : List (Edit α)} {change : Edit α} {a : α} :
    Standing (edits ++ [change]) a ↔ change.Adds a ∨ Standing edits a ∧ ¬ change.Drops a := by
  constructor
  · rintro ⟨before, first, later, heq, hadds, hlater⟩
    rcases List.eq_nil_or_concat' later with rfl | ⟨rest, final, rfl⟩
    · obtain ⟨-, hfirst⟩ := List.append_inj' heq rfl
      obtain rfl := List.singleton_inj.1 hfirst
      exact .inl hadds
    · rw [← List.cons_append, ← List.append_assoc] at heq
      obtain ⟨rfl, hfinal⟩ := List.append_inj' heq rfl
      obtain rfl := List.singleton_inj.1 hfinal
      refine .inr ⟨⟨before, first, rest, rfl, hadds, fun next hnext => ?_⟩, ?_⟩
      · exact hlater next (List.mem_append_left _ hnext)
      · exact hlater change (List.mem_append_right _ List.mem_cons_self)
  · rintro (hadds | ⟨⟨before, first, later, rfl, hadds, hlater⟩, hkeeps⟩)
    · exact ⟨edits, change, [], rfl, hadds, nofun⟩
    · refine ⟨before, first, later ++ [change], by simp, hadds, fun next hnext => ?_⟩
      rcases List.mem_append.1 hnext with hnext | hnext
      · exact hlater next hnext
      · rwa [List.mem_singleton.1 hnext]

theorem after_concat (edits : List (Edit α)) (change : Edit α) :
    after (edits ++ [change]) = change.apply (after edits) :=
  List.foldl_concat _ _ _ _

theorem nodup_after (edits : List (Edit α)) : (after edits).members.Nodup := by
  induction edits using List.reverseRecOn with
  | nil => exact List.nodup_nil
  | append_singleton edits change ih =>
    rw [after_concat]
    exact change.nodup_apply ih

theorem mem_after {edits : List (Edit α)} {a : α} : a ∈ after edits ↔ Standing edits a := by
  induction edits using List.reverseRecOn with
  | nil =>
    have hnone : a ∉ (∅ : ListenerSet α) := List.not_mem_nil
    exact iff_of_false hnone (not_standing_nil a)
  | append_singleton edits change ih =>
    rw [after_concat, Edit.mem_apply (nodup_after edits), ih, standing_concat]

/-! ## Firing -/

section Fire

variable {σ ε : Type} (call : α → σ → Except ε Unit × σ)

/-- Listeners called in turn: each but the last has accepted, and a failure of the last one is the
answer. -/
inductive Calls (call : α → σ → Except ε Unit × σ) : σ → List α → Except ε Unit → σ → Prop
  | none (w) : Calls call w [] (.ok ()) w
  | accepted {a as w v answer u} (h : call a w = (.ok (), v)) (rest : Calls call v as answer u) :
    Calls call w (a :: as) answer u
  | failed {a w v e} (h : call a w = (.error e, v)) : Calls call w [a] (.error e) v

omit [DecidableEq α] in
/-- Only a failure keeps listeners from being called. -/
theorem calls_fire (as : List α) (w : σ) : ∃ called rest, as = called ++ rest ∧
    Calls call w called (fire call as w).1 (fire call as w).2 ∧
      ((fire call as w).1 = .ok () → rest = []) := by
  induction as generalizing w with
  | nil => exact ⟨[], [], rfl, .none w, fun _ => rfl⟩
  | cons a as ih =>
    rw [fire]
    split
    · rename_i v hcall
      obtain ⟨called, rest, rfl, hcalls, hall⟩ := ih v
      exact ⟨a :: called, rest, rfl, .accepted hcall hcalls, hall⟩
    · rename_i e v hcall
      exact ⟨[a], as, rfl, .failed hcall, nofun⟩

end Fire

/-! ## Every set that edits can make -/

/-- A registry of listeners without duplicates, with the history that it comes from. -/
structure Deduplicated (edits : List (Edit α)) (s : ListenerSet α) : Prop where
  mem_iff : ∀ a, a ∈ s ↔ Standing edits a
  once : ∀ a, s.members.count a ≤ 1
  size : s.size = {a | a ∈ s}.ncard
  add_answer : ∀ a, (s.add a).1 = true ↔ (s.add a).2 ≠ s
  remove_answer : ∀ a, (s.remove a).1 = true ↔ (s.remove a).2 ≠ s
  remove_order : ∀ a, SwapsOut a s.members (s.remove a).2.members
  remove_others : ∀ a b, b ≠ a → (s.remove a).2.members.count b = s.members.count b
  /-- The listeners are called in order and none of them twice, up to the first that fails. -/
  fires : ∀ {σ ε : Type} (call : α → σ → Except ε Unit × σ) (w : σ), ∃ called rest,
    s.members = called ++ rest ∧ called.Nodup ∧
      Calls call w called (fire call s.members w).1 (fire call s.members w).2 ∧
        ((fire call s.members w).1 = .ok () → rest = [])

theorem ncard_setOf_mem (h : s.members.Nodup) : {a | a ∈ s}.ncard = s.size := by
  have hset : {a | a ∈ s} = (s.members.toFinset : Set α) := by
    ext a
    rw [List.coe_toFinset]
    rfl
  rw [hset, Set.ncard_coe_finset, List.toFinset_card_of_nodup h, size]

/-- Whatever the order of additions, removals, clearings and extensions, the set holds each standing
listener once, and tells each of them at most once. -/
theorem deduplicated_after_edits (edits : List (Edit α)) : Deduplicated edits (after edits) where
  mem_iff _ := mem_after
  once := List.nodup_iff_count_le_one.1 (nodup_after edits)
  size := (ncard_setOf_mem (nodup_after edits)).symm
  add_answer := fst_add_iff
  remove_answer := fst_remove_iff (nodup_after edits)
  remove_order := swapsOut_remove _
  remove_others a b hne := by
    rw [(members_remove_perm _ a).count_eq, List.count_erase_of_ne hne]
  fires call w := by
    obtain ⟨called, rest, hsplit, hcalls, hall⟩ := calls_fire call (after edits).members w
    have hnodup := nodup_after edits
    rw [hsplit] at hnodup
    exact ⟨called, rest, hsplit, hnodup.of_append_left, hcalls, hall⟩

/-- The last of four listeners takes the place of the second one, which is then added again behind
it. -/
example : (after [.extend [1, 2, 3, 2, 4], .remove 2, .add 2]).members = [1, 4, 3, 2] := by decide

end EntityForest.ListenerSet
