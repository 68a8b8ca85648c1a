import Mathlib.Data.List.Basic

/-!
# Weakest preconditions for state and exceptions

Programs in `EStateM ε σ` change a state and may fail; a failure keeps the changes made so
far, as in a language with mutable references and early returns. `wp m s Q E` says that `m`
run from `s` ends in `Q` if it returns and in `E` if it fails.

The equations for the operations (`wp_bind`, `wp_modify`, ...) execute a program
symbolically; `wp_mono` uses the specification of a called function, and `wp_forM` is the
rule for loops. `Keeps I m` is the special case of an invariant that holds however `m` ends.
-/

namespace LlmNotch

variable {ε σ α β : Type}

/-- `m` run from `s` ends in `Q` if it returns, in `E` if it fails. -/
def wp (m : EStateM ε σ α) (s : σ) (Q : α → σ → Prop) (E : ε → σ → Prop) : Prop :=
  match m s with
  | .ok a s' => Q a s'
  | .error e s' => E e s'

/-- Run `m` if the condition holds. -/
def onlyIf (c : Bool) (m : EStateM ε σ Unit) : EStateM ε σ Unit :=
  if c then m else pure ()

/-- Run `m` on a part of the state. -/
def zoom {τ : Type} (view : σ → τ) (put : σ → τ → σ) (m : EStateM ε τ α) : EStateM ε σ α :=
  fun s => match m (view s) with
    | .ok a t => .ok a (put s t)
    | .error e t => .error e (put s t)

/-- Run `m` and return its failure as a value. -/
def attempt (m : EStateM ε σ α) : EStateM ε σ (Except ε α) :=
  fun s => match m s with
    | .ok a t => .ok (.ok a) t
    | .error e t => .ok (.error e) t

/-- A result that does not depend on the state. -/
def ofResult (x : Except ε α) : EStateM ε σ α :=
  match x with
  | .ok a => pure a
  | .error e => throw e

/-- The state a program that returned has left. -/
def returnedState : EStateM.Result ε σ α → Option σ
  | .ok _ s => some s
  | .error _ _ => none

/-- The failure of a program and the state it has left. -/
def failedState : EStateM.Result ε σ α → Option (ε × σ)
  | .ok _ _ => none
  | .error e s => some (e, s)

variable {x : EStateM.Result ε σ α} {m : EStateM ε σ α}

theorem returnedState_eq_some {s : σ} : returnedState x = some s ↔ ∃ a, x = .ok a s := by
  cases x <;> simp [returnedState]

theorem failedState_eq_some {p : ε × σ} : failedState x = some p ↔ x = .error p.1 p.2 := by
  cases x <;> simp [failedState, Prod.ext_iff]

theorem bind_eq_ok {x : Except ε α} {f : α → Except ε β} {b : β} :
    x >>= f = .ok b ↔ ∃ a, x = .ok a ∧ f a = .ok b := by
  cases x with
  | error e => exact ⟨fun h => (by cases h), fun ⟨_, h, _⟩ => (by cases h)⟩
  | ok a => exact ⟨fun h => ⟨a, rfl, h⟩, fun ⟨_, h, hb⟩ => (by cases h; exact hb)⟩

theorem mapError_eq_ok {ε' : Type} {f : ε → ε'} {x : Except ε α} {a : α} :
    x.mapError f = .ok a ↔ x = .ok a := by
  cases x <;> simp [Except.mapError]

theorem mapM_eq_ok {f : α → Except ε β} {p : α → Prop} {g : α → β}
    (hf : ∀ a b, f a = .ok b ↔ p a ∧ b = g a) {xs : List α} {ys : List β} :
    xs.mapM f = .ok ys ↔ (∀ a ∈ xs, p a) ∧ ys = xs.map g := by
  induction xs generalizing ys with
  | nil =>
    show Except.ok [] = _ ↔ _
    simp [eq_comm]
  | cons x xs ih =>
    rw [List.mapM_cons, bind_eq_ok, List.forall_mem_cons, List.map_cons]
    constructor
    · rintro ⟨b, hb, h⟩
      obtain ⟨bs, hbs, h⟩ := bind_eq_ok.1 h
      obtain ⟨hx, rfl⟩ := (hf x b).1 hb
      obtain ⟨hxs, rfl⟩ := ih.1 hbs
      exact ⟨⟨hx, hxs⟩, (Except.ok.inj h).symm⟩
    · rintro ⟨⟨hx, hxs⟩, rfl⟩
      exact ⟨_, (hf x _).2 ⟨hx, rfl⟩, bind_eq_ok.2 ⟨_, ih.2 ⟨hxs, rfl⟩, rfl⟩⟩

theorem forM_eq_ok {f : α → Except ε Unit} {p : α → Prop}
    (hf : ∀ a, f a = .ok () ↔ p a) {xs : List α} : xs.forM f = .ok () ↔ ∀ a ∈ xs, p a := by
  induction xs with
  | nil =>
    show Except.ok () = _ ↔ _
    simp
  | cons x xs ih =>
    show (f x >>= fun _ => xs.forM f) = _ ↔ _
    rw [bind_eq_ok, List.forall_mem_cons, ← hf x, ← ih]
    exact ⟨fun ⟨_, hx, hxs⟩ => ⟨hx, hxs⟩, fun ⟨hx, hxs⟩ => ⟨(), hx, hxs⟩⟩

section Rules

variable {s : σ} {Q : α → σ → Prop} {E : ε → σ → Prop}

@[simp] theorem wp_pure (a : α) : wp (pure a : EStateM ε σ α) s Q E ↔ Q a s :=
  Iff.rfl

@[simp] theorem wp_throw (e : ε) : wp (throw e : EStateM ε σ α) s Q E ↔ E e s :=
  Iff.rfl

@[simp] theorem wp_get {Q : σ → σ → Prop} : wp (get : EStateM ε σ σ) s Q E ↔ Q s s :=
  Iff.rfl

@[simp] theorem wp_modify {Q : PUnit → σ → Prop} (f : σ → σ) :
    wp (modify f : EStateM ε σ PUnit) s Q E ↔ Q ⟨⟩ (f s) :=
  Iff.rfl

@[simp] theorem wp_bind {Q : β → σ → Prop} (m : EStateM ε σ α) (f : α → EStateM ε σ β) :
    wp (m >>= f) s Q E ↔ wp m s (fun a s' => wp (f a) s' Q E) E := by
  show wp (EStateM.bind m f) s Q E ↔ _
  unfold wp EStateM.bind
  cases m s <;> rfl

@[simp] theorem wp_onlyIf {Q : Unit → σ → Prop} (c : Bool) (m : EStateM ε σ Unit) :
    wp (onlyIf c m) s Q E ↔ (c = true → wp m s Q E) ∧ (c = false → Q () s) := by
  cases c <;> simp [onlyIf]

@[simp] theorem wp_zoom {τ : Type} {view : σ → τ} {put : σ → τ → σ} (m : EStateM ε τ α) :
    wp (zoom view put m) s Q E ↔
      wp m (view s) (fun a t => Q a (put s t)) (fun e t => E e (put s t)) := by
  unfold wp zoom
  cases m (view s) <;> rfl

@[simp] theorem wp_attempt {Q : Except ε α → σ → Prop} (m : EStateM ε σ α) :
    wp (attempt m) s Q E ↔ wp m s (fun a => Q (.ok a)) (fun e => Q (.error e)) := by
  unfold wp attempt
  cases m s <;> rfl

@[simp] theorem wp_ofResult (x : Except ε α) :
    wp (ofResult x : EStateM ε σ α) s Q E ↔
      (∀ a, x = .ok a → Q a s) ∧ ∀ e, x = .error e → E e s := by
  cases x <;> simp [ofResult]

@[simp] theorem wp_set {Q : PUnit → σ → Prop} (t : σ) :
    wp (set t : EStateM ε σ PUnit) s Q E ↔ Q ⟨⟩ t :=
  Iff.rfl

variable {m : EStateM ε σ α}

/-- Use a specification. -/
theorem wp_mono {Q' : α → σ → Prop} {E' : ε → σ → Prop} (h : wp m s Q E)
    (hQ : ∀ a s', Q a s' → Q' a s') (hE : ∀ e s', E e s' → E' e s') : wp m s Q' E' := by
  unfold wp at h ⊢
  cases hm : m s with
  | ok a s' => exact hQ a s' (by simpa [hm] using h)
  | error e s' => exact hE e s' (by simpa [hm] using h)

/-- Two specifications hold together. -/
theorem wp_and {Q' : α → σ → Prop} {E' : ε → σ → Prop} (h : wp m s Q E) (h' : wp m s Q' E') :
    wp m s (fun a t => Q a t ∧ Q' a t) (fun e t => E e t ∧ E' e t) := by
  unfold wp at h h' ⊢
  cases hm : m s with
  | ok a t => exact ⟨by simpa [hm] using h, by simpa [hm] using h'⟩
  | error e t => exact ⟨by simpa [hm] using h, by simpa [hm] using h'⟩

theorem wp_ok {a : α} {s' : σ} (h : wp m s Q E) (hm : m s = .ok a s') : Q a s' := by
  simpa [wp, hm] using h

theorem wp_error {e : ε} {s' : σ} (h : wp m s Q E) (hm : m s = .error e s') : E e s' := by
  simpa [wp, hm] using h

theorem wp_run (m : EStateM ε σ α) (s : σ) :
    wp m s (fun a t => m s = .ok a t) fun e t => m s = .error e t := by
  unfold wp
  cases m s <;> rfl

/-- A program that cannot fail returns. -/
theorem exists_ok_of_wp (h : wp m s Q fun _ _ => False) : ∃ a s', m s = .ok a s' ∧ Q a s' := by
  unfold wp at h
  cases hm : m s with
  | ok a s' => exact ⟨a, s', rfl, by simpa [hm] using h⟩
  | error e s' => simp [hm] at h

/-- The loop rule : an invariant every iteration keeps. -/
theorem wp_forM {I : σ → Prop} (xs : List β) (f : β → EStateM ε σ PUnit)
    (hf : ∀ x ∈ xs, ∀ s, I s → wp (f x) s (fun _ => I) E) (hs : I s) :
    wp (xs.forM f) s (fun _ => I) E := by
  induction xs generalizing s with
  | nil => exact hs
  | cons x xs ih =>
    show wp (f x >>= fun _ => xs.forM f) s _ E
    rw [wp_bind]
    exact wp_mono (hf x (by simp) s hs)
      (fun _ s' hs' => ih (fun y hy => hf y (List.mem_cons_of_mem x hy)) hs') (fun _ _ he => he)

theorem wp_foldlM {I : σ → Prop} {γ : Type} {f : γ → β → EStateM ε σ γ} {xs : List β}
    (hf : ∀ c, ∀ x ∈ xs, ∀ s, I s → wp (f c x) s (fun _ => I) E) (c : γ) (hs : I s) :
    wp (xs.foldlM f c) s (fun _ => I) E := by
  induction xs generalizing s c with
  | nil => exact hs
  | cons x xs ih =>
    rw [List.foldlM_cons, wp_bind]
    exact wp_mono (hf c x (by simp) s hs)
      (fun c' s' hs' => ih (fun c y hy => hf c y (List.mem_cons_of_mem x hy)) c' hs')
      (fun _ _ he => he)

/-- The loop rule for an invariant that speaks about the elements still to come. -/
theorem wp_forM_rest {I : List β → σ → Prop} {xs : List β} {f : β → EStateM ε σ PUnit}
    (hf : ∀ x rest s, I (x :: rest) s → wp (f x) s (fun _ => I rest) E) (hs : I xs s) :
    wp (xs.forM f) s (fun _ => I []) E := by
  induction xs generalizing s with
  | nil => exact hs
  | cons x xs ih =>
    show wp (f x >>= fun _ => xs.forM f) s _ E
    rw [wp_bind]
    exact wp_mono (hf x xs s hs) (fun _ s' hs' => ih hs') (fun _ _ he => he)

/-- The rule for a loop that collects results. -/
theorem wp_mapM {I : σ → Prop} {R : α → Prop} {xs : List β} {f : β → EStateM ε σ α}
    (hf : ∀ x ∈ xs, ∀ s, I s → wp (f x) s (fun a s' => I s' ∧ R a) E) (hs : I s) :
    wp (xs.mapM f) s (fun as s' => I s' ∧ ∀ a ∈ as, R a) E := by
  induction xs generalizing s with
  | nil => exact ⟨hs, fun a ha => by cases ha⟩
  | cons x xs ih =>
    rw [List.mapM_cons, wp_bind]
    refine wp_mono (hf x List.mem_cons_self s hs) (fun a s' ha => ?_) fun _ _ he => he
    rw [wp_bind]
    refine wp_mono (ih (fun y hy => hf y (List.mem_cons_of_mem x hy)) ha.1) (fun as t has => ?_)
      fun _ _ he => he
    exact ⟨has.1, List.forall_mem_cons.2 ⟨ha.2, has.2⟩⟩

end Rules

/-! ## Invariants -/

/-- However `m` ends, it keeps `I`. -/
def Keeps (I : σ → Prop) (m : EStateM ε σ α) : Prop :=
  ∀ s, I s → wp m s (fun _ => I) (fun _ => I)

variable {I : σ → Prop}

theorem keeps_pure (a : α) : Keeps I (pure a : EStateM ε σ α) :=
  fun _ h => h

theorem keeps_throw (e : ε) : Keeps I (throw e : EStateM ε σ α) :=
  fun _ h => h

theorem keeps_get : Keeps I (get : EStateM ε σ σ) :=
  fun _ h => h

theorem keeps_modify {f : σ → σ} (hf : ∀ s, I s → I (f s)) :
    Keeps I (modify f : EStateM ε σ PUnit) :=
  fun s h => hf s h

theorem keeps_bind {f : α → EStateM ε σ β} (hm : Keeps I m) (hf : ∀ a, Keeps I (f a)) :
    Keeps I (m >>= f) := by
  intro s hs
  rw [wp_bind]
  exact wp_mono (hm s hs) (fun a s' hs' => hf a s' hs') (fun _ _ h => h)

/-- However `m` ends, it keeps `I`, and what it returns satisfies `P`. -/
def Yields (I : σ → Prop) (P : α → Prop) (m : EStateM ε σ α) : Prop :=
  ∀ s, I s → wp m s (fun a s' => I s' ∧ P a) (fun _ => I)

/-- Go on with a value of which something is known. -/
theorem Yields.bind {P : α → Prop} {f : α → EStateM ε σ β} (hm : Yields I P m)
    (hf : ∀ a, P a → Keeps I (f a)) : Keeps I (m >>= f) := by
  intro s hs
  rw [wp_bind]
  exact wp_mono (hm s hs) (fun a s' h => hf a h.2 s' h.1) (fun _ _ h => h)

theorem keeps_onlyIf {c : Bool} {m : EStateM ε σ Unit} (hm : Keeps I m) :
    Keeps I (onlyIf c m) := by
  intro s hs
  rw [wp_onlyIf]
  exact ⟨fun _ => hm s hs, fun _ => hs⟩

theorem keeps_attempt (hm : Keeps I m) : Keeps I (attempt m) := by
  intro s hs
  rw [wp_attempt]
  exact hm s hs

theorem keeps_foldlM {γ : Type} {f : γ → β → EStateM ε σ γ} {xs : List β}
    (hf : ∀ c, ∀ x ∈ xs, Keeps I (f c x)) (c : γ) : Keeps I (xs.foldlM f c) := by
  induction xs generalizing c with
  | nil => exact keeps_pure c
  | cons x xs ih =>
    rw [List.foldlM_cons]
    exact keeps_bind (hf c x (by simp)) fun c' => ih (fun d y hy => hf d y (by simp [hy])) c'

theorem keeps_forM {xs : List β} {f : β → EStateM ε σ PUnit} (hf : ∀ x ∈ xs, Keeps I (f x)) :
    Keeps I (xs.forM f) :=
  fun _ hs => wp_forM xs f (fun x hx s h => hf x hx s h) hs

end LlmNotch
