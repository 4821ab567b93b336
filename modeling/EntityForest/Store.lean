/-! Growing stores of objects that are named by their position. An unwritten position holds the
default object, so reading after writing needs no bound on the position. -/

namespace EntityForest

/-- Objects named by position; `size` is the next position that `push` hands out. -/
structure Store (α : Type) where
  items : Array α

namespace Store

variable {α : Type}

def empty : Store α := ⟨#[]⟩

instance : EmptyCollection (Store α) := ⟨empty⟩
instance : Inhabited (Store α) := ⟨∅⟩

def size (s : Store α) : Nat := s.items.size

def push (s : Store α) (x : α) : Store α := ⟨s.items.push x⟩

@[simp] theorem size_push (s : Store α) (x : α) : (s.push x).size = s.size + 1 := by
  simp [size, push]

variable [Inhabited α]

def get (s : Store α) (i : Nat) : α := s.items.getD i default

/-- Writing beyond the end first fills the gap with default objects. -/
def set (s : Store α) (i : Nat) (x : α) : Store α :=
  if i < s.items.size then ⟨s.items.setIfInBounds i x⟩
  else ⟨(s.items ++ Array.replicate (i - s.items.size) default).push x⟩

def modify (s : Store α) (i : Nat) (f : α → α) : Store α := s.set i (f (s.get i))

@[simp] theorem get_empty (i : Nat) : (∅ : Store α).get i = default := by
  change (#[] : Array α).getD i default = default
  simp [Array.getD]

theorem get_of_size_le {s : Store α} {i : Nat} (h : s.size ≤ i) : s.get i = default := by
  have : ¬ i < s.items.size := Nat.not_lt.2 h
  simp [get, Array.getD, this]

theorem get_push (s : Store α) (x : α) (i : Nat) :
    (s.push x).get i = if i = s.size then x else s.get i := by
  simp only [get, push, size, Array.getD_eq_getD_getElem?, Array.getElem?_push]
  split <;> simp

theorem get_set (s : Store α) (i : Nat) (x : α) (j : Nat) :
    (s.set i x).get j = if j = i then x else s.get j := by
  simp only [get, set, Array.getD_eq_getD_getElem?]
  split
  · rename_i h
    by_cases hj : j = i
    · subst hj; simp [h]
    · have : i ≠ j := fun e => hj e.symm
      simp [hj, this]
  · rename_i h
    have hi : s.items.size ≤ i := Nat.not_lt.1 h
    simp only [Array.getElem?_push, Array.size_append, Array.size_replicate,
      Array.getElem?_append, Array.getElem?_replicate]
    have hs : s.items.size + (i - s.items.size) = i := by omega
    rw [hs]
    by_cases hj : j = i
    · simp [hj]
    · simp only [hj, ↓reduceIte]
      by_cases hlt : j < s.items.size
      · simp [hlt]
      · simp only [hlt, ↓reduceIte]
        rw [Array.getElem?_eq_none (Nat.not_lt.1 hlt)]
        split <;> rfl

@[simp] theorem get_set_self (s : Store α) (i : Nat) (x : α) : (s.set i x).get i = x := by
  simp [get_set]

theorem size_set (s : Store α) (i : Nat) (x : α) : (s.set i x).size = max s.size (i + 1) := by
  simp only [size, set]
  split
  · simp only [Array.size_setIfInBounds]; omega
  · simp only [Array.size_push, Array.size_append, Array.size_replicate]; omega

end Store

end EntityForest
