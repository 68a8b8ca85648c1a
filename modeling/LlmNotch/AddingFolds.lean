import Mathlib.Data.List.Basic
import Mathlib.Data.List.Nodup

/-!
# Folds that add what is missing

A step of a fold adds to the parts of a state those of its element that the state has not seen
(`AddsMissing`). A whole fold then adds the parts of all its elements that were not seen at the
start (`AddsMissing.foldl`). `Grown` is what both say of the parts before and after.
-/

namespace LlmNotch

variable {α β σ : Type*}

/-- The parts `before` and those of `new` that are not among `seen`, each of them once if `new`
has each once. -/
def Grown (before after seen new : List α) : Prop :=
  ∃ added, after.Perm (before ++ added) ∧ (∀ c, c ∈ added ↔ c ∈ new ∧ c ∉ seen) ∧
    (new.Nodup → added.Nodup)

namespace Grown

variable {before between after seen seen' new new' : List α}

theorem refl (before seen : List α) : Grown before before seen [] :=
  ⟨[], by simp, by simp, fun _ => List.nodup_nil⟩

theorem append (before new : List α) : Grown before (before ++ new) [] new :=
  ⟨new, List.Perm.refl _, by simp, fun hd => hd⟩

theorem mem (h : Grown before after seen new) (hseen : ∀ c ∈ seen, c ∈ before) (c : α) :
    c ∈ after ↔ c ∈ before ∨ c ∈ new := by
  obtain ⟨added, hperm, hadded, -⟩ := h
  rw [hperm.mem_iff, List.mem_append, hadded]
  constructor
  · rintro (hc | ⟨hc, -⟩)
    · exact .inl hc
    · exact .inr hc
  · rintro (hc | hc)
    · exact .inl hc
    · by_cases hs : c ∈ seen
      · exact .inl (hseen c hs)
      · exact .inr ⟨hc, hs⟩

theorem append_right (h : Grown before after seen new) (xs : List α) :
    Grown (before ++ xs) (after ++ xs) seen new := by
  obtain ⟨added, hperm, hadded⟩ := h
  refine ⟨added, ?_, hadded⟩
  calc (after ++ xs).Perm (before ++ added ++ xs) := hperm.append_right xs
    _ = before ++ (added ++ xs) := List.append_assoc ..
    List.Perm _ (before ++ (xs ++ added)) := List.perm_append_comm.append_left before
    _ = before ++ xs ++ added := (List.append_assoc ..).symm

/-- A second growth that has seen what the first one added. -/
theorem trans (h : Grown before between seen new) (h' : Grown between after seen' new')
    (hseen : ∀ c, c ∈ seen' ↔ c ∈ seen ∨ c ∈ new) : Grown before after seen (new ++ new') := by
  obtain ⟨added, hperm, hadded, hnodup⟩ := h
  obtain ⟨added', hperm', hadded', hnodup'⟩ := h'
  refine ⟨added ++ added', ?_, fun c => ?_, fun hd => ?_⟩
  · rw [← List.append_assoc]
    exact hperm'.trans (hperm.append_right added')
  · rw [List.mem_append, List.mem_append, hadded, hadded', hseen]
    tauto
  · obtain ⟨hleft, hright, hdisjoint⟩ := List.nodup_append'.1 hd
    refine List.nodup_append'.2 ⟨hnodup hleft, hnodup' hright, fun c hc hc' => ?_⟩
    exact hdisjoint ((hadded c).1 hc).1 ((hadded' c).1 hc').1

/-- Growing from nothing. -/
theorem exact (h : Grown [] after [] new) :
    (∀ c, c ∈ after ↔ c ∈ new) ∧ (new.Nodup → after.Perm new) := by
  have hmem : ∀ c, c ∈ after ↔ c ∈ new := by
    intro c
    simpa using h.mem (by simp) c
  refine ⟨hmem, fun hd => ?_⟩
  obtain ⟨added, hperm, -, hnodup⟩ := h
  rw [List.nil_append] at hperm
  exact (List.perm_ext_iff_of_nodup (hperm.nodup_iff.2 (hnodup hd)) hd).2 hmem

end Grown

/-- A step adds the parts of its element that were not seen, and has then seen all of them. -/
structure AddsMissing (push : σ → β → σ) (P : σ → Prop) (parts seen : σ → List α)
    (of : β → List α) : Prop where
  keep : ∀ {s}, P s → ∀ x, P (push s x)
  grown : ∀ {s}, P s → ∀ x, Grown (parts s) (parts (push s x)) (seen s) (of x)
  mem_seen : ∀ {s}, P s → ∀ x c, c ∈ seen (push s x) ↔ c ∈ seen s ∨ c ∈ of x

namespace AddsMissing

variable {push : σ → β → σ} {P : σ → Prop} {parts seen : σ → List α} {of : β → List α}

/-- A whole fold adds like one step. -/
theorem foldl (h : AddsMissing push P parts seen of) :
    AddsMissing (fun s xs => xs.foldl push s) P parts seen fun xs : List β => xs.flatMap of where
  keep := by
    intro s hs xs
    induction xs generalizing s with
    | nil => exact hs
    | cons x xs ih => exact ih (h.keep hs x)
  grown := by
    intro s hs xs
    induction xs generalizing s with
    | nil => exact Grown.refl _ _
    | cons x xs ih => exact (h.grown hs x).trans (ih (h.keep hs x)) (h.mem_seen hs x)
  mem_seen := by
    intro s hs xs c
    induction xs generalizing s with
    | nil => simp
    | cons x xs ih =>
      dsimp only [List.foldl_cons] at ih ⊢
      rw [ih (h.keep hs x), h.mem_seen hs x, List.flatMap_cons, List.mem_append, or_assoc]

end AddsMissing

end LlmNotch
