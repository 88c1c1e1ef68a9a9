import Mathlib.Data.List.Forall2

/-!
# Subsequences up to a relation

`List.SublistForall₂ R l l'`: the elements of `l` reappear in `l'` in their order, each related
to its image. Concatenation, and refinement of the second list.
-/

namespace Rocketcycle.Subsequence

open List

variable {α β : Type}

theorem refl {R : α → α → Prop} (h : ∀ a, R a a) : ∀ l : List α, SublistForall₂ R l l
  | [] => .nil
  | a :: l => .cons (h a) (refl h l)

theorem of_map {R : α → β → Prop} {f : α → β} (h : ∀ a, R a (f a)) : ∀ l : List α, SublistForall₂ R l (l.map f)
  | [] => .nil
  | a :: l => .cons (h a) (of_map h l)

theorem append_left {R : α → β → Prop} {l : List α} {l' : List β} (h : SublistForall₂ R l l') :
    ∀ front : List β, SublistForall₂ R l (front ++ l')
  | [] => h
  | _ :: front => .cons_right (append_left h front)

theorem append {R : α → β → Prop} {l₁ l₂ : List α} {l₁' l₂' : List β} (h₁ : SublistForall₂ R l₁ l₁')
    (h₂ : SublistForall₂ R l₂ l₂') : SublistForall₂ R (l₁ ++ l₂) (l₁' ++ l₂') := by
  induction h₁ with
  | nil => exact append_left h₂ _
  | cons r _ ih => exact .cons r ih
  | cons_right _ ih => exact .cons_right ih

/-- A subsequence stays one when every element of the longer list is replaced by one that is
still related to whatever the old one was related to. -/
theorem refine {R : α → β → Prop} {S : β → β → Prop} (step : ∀ a b b', R a b → S b b' → R a b')
    {l : List α} {m m' : List β} (h : SublistForall₂ R l m) (h' : SublistForall₂ S m m') :
    SublistForall₂ R l m' := by
  induction h' generalizing l with
  | nil =>
    cases h
    exact .nil
  | cons s _ ih =>
    cases h with
    | nil => exact .nil
    | cons r h => exact .cons (step _ _ _ r s) (ih h)
    | cons_right h => exact .cons_right (ih h)
  | cons_right _ ih => exact .cons_right (ih h)

end Rocketcycle.Subsequence
