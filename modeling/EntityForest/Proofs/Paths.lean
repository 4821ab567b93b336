import Mathlib.Data.Set.Insert
import Mathlib.Logic.Relation

/-! # Paths

A step that is added to a relation closes a cycle only where a path led back to its start before.
Where every step is determined, nothing leads off a cycle. What changes at one point does not change
the paths that stay away from it. -/

namespace EntityForest

open Relation (ReflTransGen TransGen)

variable {α : Type} {R S : α → α → Prop}

theorem not_cycle_of_step (hac : ∀ x, ¬ TransGen R x x) {a b : α}
    (hstep : ∀ x y, S x y → R x y ∨ (x = a ∧ y = b)) (hback : ¬ ReflTransGen R b a) (x : α) :
    ¬ TransGen S x x := by
  -- a path is an old one, or it is cut in two by the step from `a` to `b`
  have hcut : ∀ x y, TransGen S x y →
      TransGen R x y ∨ (ReflTransGen R x a ∧ ReflTransGen R b y) := by
    intro x y h
    induction h with
    | single h =>
      rcases hstep _ _ h with h | ⟨rfl, rfl⟩
      · exact .inl (.single h)
      · exact .inr ⟨.refl, .refl⟩
    | tail _ h ih =>
      rcases hstep _ _ h with h | ⟨rfl, rfl⟩
      · rcases ih with ih | ⟨hx, hy⟩
        · exact .inl (ih.tail h)
        · exact .inr ⟨hx, hy.tail h⟩
      · rcases ih with ih | ⟨hx, -⟩
        · exact .inr ⟨ih.to_reflTransGen, .refl⟩
        · exact .inr ⟨hx, .refl⟩
  intro h
  rcases hcut x x h with h | ⟨hx, hy⟩
  · exact hac x h
  · exact hback (hy.trans hx)

theorem cycle_of_reaches (hunique : Relator.RightUnique R) {x y : α} (hx : TransGen R x x)
    (hy : ReflTransGen R x y) : TransGen R y y := by
  induction hy with
  | refl => exact hx
  | tail _ hstep ih =>
    obtain ⟨z, hfirst, hrest⟩ := TransGen.head'_iff.1 ih
    obtain rfl := hunique hfirst hstep
    exact .tail' hrest hstep

/-- A path that is left the same but at some points still leads to its end, or to one of these
points that it has passed. -/
theorem reaches_or_of_notMem {P : Set α} (hstep : ∀ {x y}, x ∉ P → R x y → S x y) {x y : α}
    (h : ReflTransGen R x y) :
    ReflTransGen S x y ∨ ∃ p ∈ P, ReflTransGen S x p ∧ ReflTransGen R p y := by
  induction h using ReflTransGen.head_induction_on with
  | refl => exact .inl .refl
  | @head x z hfirst hrest ih =>
    by_cases hx : x ∈ P
    · exact .inr ⟨x, hx, .refl, .head hfirst hrest⟩
    · rcases ih with hend | ⟨p, hp, hpath, hmore⟩
      · exact .inl (.head (hstep hx hfirst) hend)
      · exact .inr ⟨p, hp, .head (hstep hx hfirst) hpath, hmore⟩

/-- A path that is left the same but at one point still leads to its end, or to that point. -/
theorem reaches_or_of_ne {p : α} (hstep : ∀ {x y}, x ≠ p → R x y → S x y) {x y : α}
    (h : ReflTransGen R x y) : ReflTransGen S x p ∨ ReflTransGen S x y := by
  rcases reaches_or_of_notMem (P := {p}) hstep h with hend | ⟨_, rfl, hpath, -⟩
  · exact .inr hend
  · exact .inl hpath

/-- What happens at a point is of no concern to the paths that lead there. -/
theorem reaches_iff_of_ne {p : α} (hstep : ∀ {x y}, x ≠ p → (R x y ↔ S x y)) {x : α} :
    ReflTransGen R x p ↔ ReflTransGen S x p :=
  ⟨fun h => (reaches_or_of_ne (fun hx => (hstep hx).1) h).elim id id,
    fun h => (reaches_or_of_ne (fun hx => (hstep hx).2) h).elim id id⟩

end EntityForest
