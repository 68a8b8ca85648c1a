import Mathlib.Data.List.Chain

/-!
# Runs of a partial transition function

A system is a function `step : σ → α → Option σ`; an action that is not enabled gives
`none`. `run` executes a list of actions, and `Guarded` says that every action of a run
is taken in a state where the guard `ok` allows it.

`Guarded.invariant` is the induction every safety result uses : an invariant kept by one
allowed step is kept by every run of allowed steps. `Guarded.always` gives the same for
all states a run passes through, and `Guarded.isChain` relates every two states `visited`
one after the other. `Guarded.forall_visited_iff` is for guards that are exact.
`Guarded.of_check` decides a guard along a concrete run.
-/

namespace LlmNotch

variable {σ α : Type*}

/-- Execute a list of actions, each of which must be enabled. -/
def run (step : σ → α → Option σ) : σ → List α → Option σ
  | s, [] => some s
  | s, a :: as => (step s a).bind fun t => run step t as

@[simp] theorem run_nil (step : σ → α → Option σ) (s : σ) : run step s [] = some s :=
  rfl

theorem run_cons {step : σ → α → Option σ} {s u : σ} {a : α} {as : List α} :
    run step s (a :: as) = some u ↔ ∃ t, step s a = some t ∧ run step t as = some u := by
  simp [run, Option.bind_eq_some_iff]

/-- A run splits at every point of its action list. -/
theorem run_append {step : σ → α → Option σ} {s u : σ} {as bs : List α} :
    run step s (as ++ bs) = some u ↔ ∃ t, run step s as = some t ∧ run step t bs = some u := by
  induction as generalizing s with
  | nil => simp
  | cons a as ih =>
    simp only [List.cons_append, run_cons, ih]
    constructor
    · rintro ⟨t, ht, r, hr, hu⟩
      exact ⟨r, ⟨t, ht, hr⟩, hu⟩
    · rintro ⟨r, ⟨t, ht, hr⟩, hu⟩
      exact ⟨t, ht, r, hr, hu⟩

/-- The states a run passes through, up to the first action that is not enabled. -/
def visited (step : σ → α → Option σ) : σ → List α → List σ
  | s, [] => [s]
  | s, a :: as => s :: (step s a).elim [] fun t => visited step t as

theorem visited_eq_cons (step : σ → α → Option σ) (s : σ) (as : List α) :
    ∃ rest, visited step s as = s :: rest := by
  cases as with
  | nil => exact ⟨[], rfl⟩
  | cons a as => exact ⟨_, rfl⟩

/-- The last state of a run is visited. -/
theorem mem_visited {step : σ → α → Option σ} {s t : σ} {as : List α}
    (h : run step s as = some t) : t ∈ visited step s as := by
  induction as generalizing s with
  | nil =>
    rw [← Option.some.inj h]
    exact List.mem_singleton_self s
  | cons a as ih =>
    obtain ⟨u, hu, hrest⟩ := run_cons.1 h
    rw [visited, hu]
    exact List.mem_cons_of_mem s (ih hrest)

/-- Every action of the run from `s` is taken in a state where `ok` allows it. -/
def Guarded (step : σ → α → Option σ) (ok : σ → α → Prop) : σ → List α → Prop
  | _, [] => True
  | s, a :: as => ok s a ∧ ∀ t, step s a = some t → Guarded step ok t as

/-- Evaluate a check at every action of a run. -/
def checkRun (step : σ → α → Option σ) (check : σ → α → Bool) : σ → List α → Bool
  | _, [] => true
  | s, a :: as => check s a && match step s a with
    | some t => checkRun step check t as
    | none => true

namespace Guarded

variable {step : σ → α → Option σ} {ok : σ → α → Prop}

/-- With no restriction every run is guarded. -/
theorem trivial (step : σ → α → Option σ) (s : σ) (as : List α) :
    Guarded step (fun _ _ => True) s as := by
  induction as generalizing s with
  | nil => exact True.intro
  | cons a as ih => exact ⟨True.intro, fun t _ => ih t⟩

variable {s : σ} {as : List α} {I : σ → Prop}

/-- A weaker guard allows every run a stronger one allows. -/
theorem mono {ok' : σ → α → Prop} (h : ∀ s a, ok s a → ok' s a) (hg : Guarded step ok s as) :
    Guarded step ok' s as := by
  induction as generalizing s with
  | nil => exact True.intro
  | cons a as ih => exact ⟨h s a hg.1, fun t ht => ih (hg.2 t ht)⟩

/-- A property of all actions of a run may be added to its guard. -/
theorem and_forall {P : α → Prop} (hP : ∀ a ∈ as, P a) (hg : Guarded step ok s as) :
    Guarded step (fun s a => P a ∧ ok s a) s as := by
  induction as generalizing s with
  | nil => exact True.intro
  | cons a as ih =>
    exact ⟨⟨hP a (by simp), hg.1⟩,
      fun t ht => ih (fun x hx => hP x (List.mem_cons_of_mem a hx)) (hg.2 t ht)⟩

/-- Two guards of one run. -/
theorem and {ok' : σ → α → Prop} (hg : Guarded step ok s as) (hg' : Guarded step ok' s as) :
    Guarded step (fun s a => ok s a ∧ ok' s a) s as := by
  induction as generalizing s with
  | nil => exact True.intro
  | cons a as ih => exact ⟨⟨hg.1, hg'.1⟩, fun t ht => ih (hg.2 t ht) (hg'.2 t ht)⟩

theorem append {bs : List α} (hg : Guarded step ok s (as ++ bs)) :
    Guarded step ok s as ∧ ∀ t, run step s as = some t → Guarded step ok t bs := by
  induction as generalizing s with
  | nil =>
    refine ⟨True.intro, fun t ht => ?_⟩
    obtain rfl : s = t := by simpa using ht
    exact hg
  | cons a as ih =>
    obtain ⟨ha, hrest⟩ := hg
    refine ⟨⟨ha, fun t ht => (ih (hrest t ht)).1⟩, fun u hu => ?_⟩
    obtain ⟨t, ht, htu⟩ := run_cons.1 hu
    exact (ih (hrest t ht)).2 u htu

/-- An invariant kept by every allowed step is kept by every guarded run. -/
theorem invariant (hstep : ∀ s a t, ok s a → I s → step s a = some t → I t) {t : σ} (hs : I s)
    (hg : Guarded step ok s as) (hr : run step s as = some t) : I t := by
  induction as generalizing s with
  | nil =>
    obtain rfl : s = t := by simpa using hr
    exact hs
  | cons a as ih =>
    obtain ⟨r, hsr, hrt⟩ := run_cons.1 hr
    exact ih (hstep s a r hg.1 hs hsr) (hg.2 r hsr) hrt

/-- An invariant kept by every allowed step holds in every state a guarded run visits. -/
theorem forall_visited (hstep : ∀ s a t, ok s a → I s → step s a = some t → I t) (hs : I s)
    (hg : Guarded step ok s as) : ∀ t ∈ visited step s as, I t := by
  induction as generalizing s with
  | nil =>
    intro t ht
    rw [List.mem_singleton.1 ht]
    exact hs
  | cons a as ih =>
    intro t ht
    rcases List.mem_cons.1 ht with rfl | ht
    · exact hs
    · cases hr : step s a with
      | none =>
        rw [hr] at ht
        cases ht
      | some r =>
        rw [hr] at ht
        exact ih (hstep s a r hg.1 hs hr) (hg.2 r hr) t ht

/-- If a step keeps `P` exactly when it is allowed, and an allowed step keeps `K`, then `P` holds in
all visited states exactly when the run is guarded. -/
theorem forall_visited_iff_kept {P K : σ → Prop}
    (hstep : ∀ s a, P s → K s → ∃ t, step s a = some t ∧ (P t ↔ ok s a) ∧ (ok s a → K t)) (hs : P s)
    (hk : K s) : (∀ t ∈ visited step s as, P t) ↔ Guarded step ok s as := by
  induction as generalizing s with
  | nil =>
    refine iff_of_true (fun t ht => ?_) True.intro
    rw [List.mem_singleton.1 ht]
    exact hs
  | cons a as ih =>
    obtain ⟨t, ht, hiff, hkept⟩ := hstep s a hs hk
    have hvisited : visited step s (a :: as) = s :: visited step t as := by
      rw [visited, ht]
      rfl
    rw [hvisited, List.forall_mem_cons]
    constructor
    · rintro ⟨-, hrest⟩
      obtain ⟨rest, hcons⟩ := visited_eq_cons step t as
      have hP : P t := hrest t (by rw [hcons]; exact List.mem_cons_self)
      refine ⟨hiff.1 hP, fun u hu => ?_⟩
      obtain rfl : t = u := Option.some.inj (ht.symm.trans hu)
      exact (ih hP (hkept (hiff.1 hP))).1 hrest
    · rintro ⟨hok, hrest⟩
      exact ⟨hs, (ih (hiff.2 hok) (hkept hok)).2 (hrest t ht)⟩

/-- The same with nothing else to keep. -/
theorem forall_visited_iff (hstep : ∀ s a, I s → ∃ t, step s a = some t ∧ (I t ↔ ok s a))
    (hs : I s) : (∀ t ∈ visited step s as, I t) ↔ Guarded step ok s as := by
  have hkept : ∀ s a, I s → True →
      ∃ t, step s a = some t ∧ (I t ↔ ok s a) ∧ (ok s a → True) := by
    intro s a h _
    obtain ⟨t, ht, hiff⟩ := hstep s a h
    exact ⟨t, ht, hiff, fun _ => True.intro⟩
  exact forall_visited_iff_kept hkept hs True.intro

/-- A property of all visited states is a guard of the run. -/
theorem of_visited {P : σ → Prop} (h : ∀ t ∈ visited step s as, P t) :
    Guarded step (fun s _ => P s) s as := by
  induction as generalizing s with
  | nil => exact True.intro
  | cons a as ih =>
    refine ⟨h s List.mem_cons_self, fun t ht => ih fun u hu => h u ?_⟩
    refine List.mem_cons_of_mem s ?_
    rw [ht]
    exact hu

/-- What every allowed step does relates the states visited one after the other. -/
theorem isChain {R : σ → σ → Prop} (hstep : ∀ s a t, ok s a → I s → step s a = some t → I t)
    (hR : ∀ s a t, ok s a → I s → step s a = some t → R s t) (hs : I s)
    (hg : Guarded step ok s as) : (visited step s as).IsChain R := by
  induction as generalizing s with
  | nil => exact .singleton s
  | cons a as ih =>
    simp only [visited]
    cases ht : step s a with
    | none => exact .singleton s
    | some t =>
      have hrest := ih (hstep s a t hg.1 hs ht) (hg.2 t ht)
      obtain ⟨rest, hvisited⟩ := visited_eq_cons step t as
      rw [Option.elim_some, hvisited]
      rw [hvisited] at hrest
      exact .cons_cons (hR s a t hg.1 hs ht) hrest

/-- A run is guarded if a check passes at each of its actions, where the check is sound in
the states that satisfy `I`. -/
theorem of_check (check : σ → α → Bool)
    (hinv : ∀ s a t, I s → check s a = true → step s a = some t → I t)
    (hok : ∀ s a, I s → check s a = true → ok s a) (hs : I s)
    (h : checkRun step check s as = true) : Guarded step ok s as := by
  induction as generalizing s with
  | nil => exact True.intro
  | cons a as ih =>
    obtain ⟨ha, hrest⟩ := Bool.and_eq_true_iff.1 h
    refine ⟨hok s a hs ha, fun t ht => ih (hinv s a t hs ha ht) ?_⟩
    rwa [ht] at hrest

/-- A check that is sound in every state. -/
theorem of_sound (check : σ → α → Bool) (hok : ∀ s a, check s a = true → ok s a)
    (h : checkRun step check s as = true) : Guarded step ok s as :=
  of_check (I := fun _ => True) check (fun _ _ _ _ _ _ => True.intro)
    (fun s a _ hc => hok s a hc) True.intro h

/-- A decidable guard is its own check. -/
theorem of_decide [∀ s a, Decidable (ok s a)]
    (h : checkRun step (fun s a => decide (ok s a)) s as = true) : Guarded step ok s as :=
  of_sound _ (fun _ _ hc => of_decide_eq_true hc) h

end Guarded

end LlmNotch
