import Mathlib.Data.List.Induction

/-!
# The last write to a cell

A list of operations writes to a cell : `f x = some b` if the operation `x` writes `b`.
`lastSome f xs` is what the operations leave there, `none` if none of them writes.

Some writes may be put off until all other operations are done. `lastSome_deferred_iff` says
when the cell does not show it : nothing else that is written after the last deferred write
leaves another value.
-/

namespace LlmNotch

variable {α β : Type*}

/-- The last value written. -/
def lastSome (f : α → Option β) (xs : List α) : Option β :=
  xs.reverse.findSome? f

@[simp] theorem lastSome_nil (f : α → Option β) : lastSome f [] = none :=
  rfl

theorem lastSome_append (f : α → Option β) (xs ys : List α) :
    lastSome f (xs ++ ys) = (lastSome f ys).or (lastSome f xs) := by
  simp [lastSome, List.findSome?_append]

@[simp] theorem lastSome_singleton (f : α → Option β) (x : α) : lastSome f [x] = f x := by
  simp [lastSome]

theorem lastSome_cons (f : α → Option β) (x : α) (xs : List α) :
    lastSome f (x :: xs) = (lastSome f xs).or (f x) := by
  rw [← List.singleton_append, lastSome_append, lastSome_singleton]

theorem lastSome_eq_none {f : α → Option β} {xs : List α} (h : ∀ x ∈ xs, f x = none) :
    lastSome f xs = none :=
  List.findSome?_eq_none_iff.2 fun x hx => h x (List.mem_reverse.1 hx)

theorem lastSome_congr {f g : α → Option β} {xs : List α} (h : ∀ x ∈ xs, f x = g x) :
    lastSome f xs = lastSome g xs := by
  induction xs with
  | nil => rfl
  | cons x xs ih =>
    have hrest := ih fun y hy => h y (List.mem_cons_of_mem x hy)
    rw [lastSome_cons, lastSome_cons, hrest, h x List.mem_cons_self]

/-- Operations that do not write may be left out. -/
theorem lastSome_filter {f : α → Option β} {keep : α → Bool} {xs : List α}
    (h : ∀ x ∈ xs, keep x = false → f x = none) : lastSome f (xs.filter keep) = lastSome f xs := by
  induction xs using List.reverseRecOn with
  | nil => rfl
  | append_singleton xs x ih =>
    have hxs := ih fun y hy => h y (List.mem_append_left _ hy)
    rw [List.filter_append, lastSome_append, lastSome_append, hxs, lastSome_singleton]
    cases hx : keep x with
    | true => simp [hx]
    | false =>
      have hnone : f x = none := h x (List.mem_append_right _ (List.mem_singleton_self x)) hx
      simp [hx, hnone]

/-- The last write has a place. -/
theorem exists_of_lastSome {f : α → Option β} {xs : List α} {b : β} (h : lastSome f xs = some b) :
    ∃ before x after, xs = before ++ x :: after ∧ f x = some b ∧ ∀ y ∈ after, f y = none := by
  induction xs using List.reverseRecOn with
  | nil => cases h
  | append_singleton xs x ih =>
    rw [lastSome_append, lastSome_singleton] at h
    cases hx : f x with
    | some c =>
      rw [hx] at h
      cases h
      exact ⟨xs, x, [], rfl, hx, fun y hy => absurd hy List.not_mem_nil⟩
    | none =>
      rw [hx, Option.none_or] at h
      obtain ⟨before, y, after, rfl, hy, hafter⟩ := ih h
      refine ⟨before, y, after ++ [x], by simp, hy, fun z hz => ?_⟩
      obtain hz | rfl := (List.mem_append.1 hz).imp_right List.mem_singleton.1
      · exact hafter z hz
      · exact hx

/-! ## Deferred writes -/

section Deferred

variable {deferred other : α → Option β}

/-- The cell is untouched by the operations that write last exactly if none writes. -/
theorem isSome_lastSome_or (xs : List α) :
    (lastSome (fun x => (deferred x).or (other x)) xs).isSome =
      ((lastSome deferred xs).or (lastSome other xs)).isSome := by
  induction xs using List.reverseRecOn with
  | nil => rfl
  | append_singleton xs x ih =>
    rw [lastSome_append, lastSome_append, lastSome_append, lastSome_singleton,
      lastSome_singleton, lastSome_singleton]
    simp only [Option.isSome_or] at ih ⊢
    rw [ih]
    cases (deferred x).isSome <;> cases (other x).isSome <;> simp

theorem lastSome_split (before : List α) {after : List α} {x : α} {b : β}
    (hx : deferred x = some b) (hafter : ∀ y ∈ after, deferred y = none) :
    lastSome deferred (before ++ x :: after) = some b ∧
      lastSome (fun x => (deferred x).or (other x)) (before ++ x :: after) =
        (lastSome other after).or (some b) := by
  have hlist : before ++ x :: after = (before ++ [x]) ++ after := by simp
  have hrest : lastSome (fun x => (deferred x).or (other x)) after = lastSome other after :=
    lastSome_congr fun y hy => by rw [hafter y hy, Option.none_or]
  rw [hlist, lastSome_append, lastSome_append, lastSome_append, lastSome_append, hrest,
    lastSome_eq_none hafter, lastSome_singleton, lastSome_singleton, hx]
  simp

/-- Putting writes off does not show exactly if nothing written after the last of them leaves
another value. -/
theorem lastSome_deferred_iff (xs : List α) :
    (lastSome deferred xs).or (lastSome other xs) =
        lastSome (fun x => (deferred x).or (other x)) xs ↔
      ∀ before x after b, xs = before ++ x :: after → deferred x = some b →
        (∀ y ∈ after, deferred y = none) → ∀ c, lastSome other after = some c → c = b := by
  constructor
  · rintro heq before x after b rfl hx hafter c hc
    obtain ⟨hlate, hall⟩ := lastSome_split before hx hafter
    rw [hlate, hall, hc] at heq
    exact (Option.some.inj heq).symm
  · intro h
    cases hlate : lastSome deferred xs with
    | none =>
      rw [Option.none_or]
      have hnone : ∀ x ∈ xs, deferred x = none := fun x hx =>
        List.findSome?_eq_none_iff.1 hlate x (List.mem_reverse.2 hx)
      exact lastSome_congr fun x hx => by rw [hnone x hx, Option.none_or]
    | some b =>
      obtain ⟨before, x, after, rfl, hx, hafter⟩ := exists_of_lastSome hlate
      rw [(lastSome_split before hx hafter).2]
      cases hc : lastSome other after with
      | none => rfl
      | some c =>
        obtain rfl := h before x after b rfl hx hafter c hc
        rfl

end Deferred

end LlmNotch
