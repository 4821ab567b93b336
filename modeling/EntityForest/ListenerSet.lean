/-! Registries of listeners. A listener is registered at most once; removing one moves the last
listener into its place. -/

namespace EntityForest

/-- The last element moved in front of the others. -/
def lastToFront {α : Type} (l : List α) : List α :=
  match l.getLast? with
  | none => []
  | some z => z :: l.dropLast

theorem lastToFront_perm {α : Type} (l : List α) : (lastToFront l).Perm l := by
  rcases List.eq_nil_or_concat l with rfl | ⟨front, z, rfl⟩
  · exact .refl _
  · have : ([z] ++ front).Perm (front ++ [z]) := List.perm_append_comm
    simpa [lastToFront] using this

/-- Registered listeners in the order in which they are called. -/
structure ListenerSet (α : Type) where
  members : List α
  deriving DecidableEq

namespace ListenerSet

variable {α : Type}

def empty : ListenerSet α := ⟨[]⟩

instance : EmptyCollection (ListenerSet α) := ⟨empty⟩
instance : Inhabited (ListenerSet α) := ⟨∅⟩

def size (s : ListenerSet α) : Nat := s.members.length

def isEmpty (s : ListenerSet α) : Bool := s.members.isEmpty

instance : Membership α (ListenerSet α) := ⟨fun s a => a ∈ s.members⟩

theorem mem_def {s : ListenerSet α} {a : α} : a ∈ s ↔ a ∈ s.members := Iff.rfl

variable [DecidableEq α]

instance (s : ListenerSet α) (a : α) : Decidable (a ∈ s) :=
  inferInstanceAs (Decidable (a ∈ s.members))

/-- Adds a listener at the end; answers whether it was absent. -/
def add (s : ListenerSet α) (a : α) : Bool × ListenerSet α :=
  if a ∈ s then (false, s) else (true, ⟨s.members ++ [a]⟩)

/-- Removes a listener; answers whether it was present. The last of those behind it takes its
place. -/
def remove (s : ListenerSet α) (a : α) : Bool × ListenerSet α :=
  match s.members.dropWhile (· ≠ a) with
  | [] => (false, s)
  | _ :: behind => (true, ⟨s.members.takeWhile (· ≠ a) ++ lastToFront behind⟩)

/-- Adds several listeners in order. -/
def extend (s : ListenerSet α) (as : List α) : ListenerSet α :=
  as.foldl (fun s a => (s.add a).2) s

/-! ### Membership -/

theorem add_of_mem {s : ListenerSet α} {a : α} (h : a ∈ s) : s.add a = (false, s) := if_pos h

theorem add_of_not_mem {s : ListenerSet α} {a : α} (h : a ∉ s) :
    s.add a = (true, ⟨s.members ++ [a]⟩) := if_neg h

@[simp] theorem mem_add {s : ListenerSet α} {a b : α} : b ∈ (s.add a).2 ↔ b ∈ s ∨ b = a := by
  by_cases h : a ∈ s
  · rw [add_of_mem h]
    refine ⟨Or.inl, ?_⟩
    rintro (hb | rfl)
    · exact hb
    · exact h
  · rw [add_of_not_mem h]
    simp [mem_def]

private theorem ne_of_not_mem {l : List α} {a : α} (h : a ∉ l) :
    ∀ b ∈ l, decide (b ≠ a) = true := by
  intro b hb
  rw [decide_eq_true_eq]
  rintro rfl
  exact h hb

theorem remove_of_not_mem {s : ListenerSet α} {a : α} (h : a ∉ s) : s.remove a = (false, s) := by
  have : s.members.dropWhile (· ≠ a) = [] := by
    have := @List.dropWhile_append_of_pos _ (fun b => decide (b ≠ a)) s.members [] (ne_of_not_mem h)
    simpa using this
  simp only [remove, this]

theorem remove_of_mem {s : ListenerSet α} {a : α} {front behind : List α}
    (h : s.members = front ++ a :: behind) (hf : a ∉ front) :
    s.remove a = (true, ⟨front ++ lastToFront behind⟩) := by
  simp only [remove, h, List.dropWhile_append_of_pos (ne_of_not_mem hf),
    List.takeWhile_append_of_pos (ne_of_not_mem hf), List.dropWhile_cons, List.takeWhile_cons]
  simp

/-- Removal takes out one listener and keeps all others, possibly in another order. -/
theorem members_remove_perm (s : ListenerSet α) (a : α) :
    (s.remove a).2.members.Perm (s.members.erase a) := by
  by_cases h : a ∈ s
  · obtain ⟨front, behind, hs, hf⟩ := List.eq_append_cons_of_mem h
    rw [remove_of_mem hs hf, hs, List.erase_append_right _ hf, List.erase_cons_head]
    exact (lastToFront_perm behind).append_left front
  · rw [remove_of_not_mem h, List.erase_of_not_mem h]

end ListenerSet

/-- Calls each listener in turn and stops at the first failure, which is the result. -/
def fire {α σ ε : Type} (call : α → σ → Except ε Unit × σ) : List α → σ → Except ε Unit × σ
  | [], s => (.ok (), s)
  | a :: as, s =>
    match call a s with
    | (.ok (), s) => fire call as s
    | (.error e, s) => (.error e, s)

end EntityForest
