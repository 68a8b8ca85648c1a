import Mathlib.Data.List.Basic

/-!
# Folds that change nothing twice

A step of a fold settles the state for its element : the state is then left alone by this
element, and stays settled for it whatever elements come. The fold over a list then changes
nothing when it is run again (`foldl_twice`).
-/

namespace LlmNotch

variable {α β γ : Type*}

/-- `settled x b` : the state `b` has what the step for `x` puts there. A step settles the state
for its element, if the element satisfies `P`. -/
structure Settles (push : β → α → β) (P : α → Prop) (settled : α → β → Prop) : Prop where
  still : ∀ {b x}, settled x b → push b x = b
  settle : ∀ {x}, P x → ∀ b, settled x (push b x)
  keep : ∀ {b x}, settled x b → ∀ y, settled x (push b y)

namespace Settles

variable {push : β → α → β} {P : α → Prop} {settled : α → β → Prop}

section

variable (h : Settles push P settled)

include h

theorem foldl_still {xs : List α} {b : β} (hb : ∀ x ∈ xs, settled x b) : xs.foldl push b = b := by
  induction xs with
  | nil => rfl
  | cons x xs ih =>
    rw [List.foldl_cons, h.still (hb x List.mem_cons_self)]
    exact ih fun y hy => hb y (List.mem_cons_of_mem x hy)

theorem foldl_keep {x : α} {b : β} (hb : settled x b) (ys : List α) :
    settled x (ys.foldl push b) := by
  induction ys generalizing b with
  | nil => exact hb
  | cons y ys ih => exact ih (h.keep hb y)

theorem foldl_settle {xs : List α} (hP : ∀ x ∈ xs, P x) (b : β) :
    ∀ x ∈ xs, settled x (xs.foldl push b) := by
  induction xs generalizing b with
  | nil => intro x hx; cases hx
  | cons y xs ih =>
    intro x hx
    rw [List.foldl_cons]
    rcases List.mem_cons.1 hx with rfl | hx
    · exact h.foldl_keep (h.settle (hP x List.mem_cons_self) b) xs
    · exact ih (fun z hz => hP z (List.mem_cons_of_mem y hz)) (push b y) x hx

/-- The fold run twice. -/
theorem foldl_twice {xs : List α} (hP : ∀ x ∈ xs, P x) (b : β) :
    xs.foldl push (xs.foldl push b) = xs.foldl push b :=
  h.foldl_still (h.foldl_settle hP b)

end

end Settles

end LlmNotch
