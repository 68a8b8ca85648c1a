import LlmNotch.CoreOutcomes
import LlmNotch.IngestIsolation
import LlmNotch.StreamRefinement

/-!
# Reconciling process roots

An ingest that starts or updates a session ends with a pass over all sessions : the roots of
sessions that ended or whose process does not run are forgotten, and the others are measured,
up to `maxActiveRoots`. Whether the pass succeeds depends on the part of the state a `Sketch`
has, and is decided by replaying the list of measured sessions (`rootsFit`).

`wp_reconcileMetricRoots_outcome` : unless the repository fails, the pass succeeds exactly if
the roots fit, and it changes sessions only by forgetting their roots (`Unrooted`).
-/

namespace LlmNotch

namespace Host

open AppCore

/-- The repository failed. -/
def Denied (f : HostFault) : Prop :=
  ∃ text ∈ sqliteErrors, f = .rejected text

theorem denied_of_storeFails {f : Fault} (h : StoreFails f) : Denied (hostFault f) := by
  obtain ⟨detail, hd, rfl⟩ := h
  exact ⟨detail, hd, rfl⟩

/-! ## Sketches -/

/-- What decides whether the calls of an ingest succeed : the sessions and integrations of the
core, the sessions whose roots are measured, and what the calls will read. -/
@[ext]
structure Sketch where
  sessions : Dict String AgentSession
  integrations : List AdapterCapabilities
  measured : List String
  envs : ℕ → HostEnv

def HostWorld.sketch (h : HostWorld) : Sketch where
  sessions := h.world.registry.sessions
  integrations := h.world.inner.integrations
  measured := h.roots.map (·.sessionId)
  envs := h.envs

namespace Sketch

variable (sk : Sketch)

/-- After `n` calls. -/
@[simps]
def skip (n : ℕ) : Sketch :=
  { sk with envs := fun i => sk.envs (i + n) }

@[simps]
def change (id : String) (f : AgentSession → AgentSession) : Sketch :=
  { sk with sessions := sk.sessions.adjust id f }

/-- The root of the session is not measured any more. -/
@[simps]
def forget (id : String) : Sketch :=
  { sk with measured := sk.measured.filter (· ≠ id) }

/-- The sessions of a snapshot. -/
def snapshot : List AgentSession :=
  ((sk.sessions.valuesBy (sk.envs 0).core.sessionsRank).insertionSort
    fun a b => b.lastEventAtMs ≤ a.lastEventAtMs).take maxSessions

end Sketch

theorem snapshot_sketch (h : HostWorld) :
    (snapshotWithSequence h.env.core h.world).snapshot.sessions = h.sketch.snapshot :=
  rfl

/-! ## The replay -/

/-- What the pass does about the root of a session. -/
inductive RootFate where
  | absent
  | dropped (calls : ℕ)
  | kept
  | measured
  deriving DecidableEq

/-- A root is dropped after one call if its session ended, and after two if its process does
not run. -/
def rootFate (registered : List String) (env : HostEnv) (s : AgentSession) : RootFate :=
  match s.processRoot with
  | none => .absent
  | some root =>
    if isTerminal s.status then .dropped 1
    else if env.live root = none then .dropped 2
    else if attributionForSource s.source = .unknown ∨ registered.contains s.id then .kept
    else .measured

def RootFate.drops : RootFate → Bool
  | .dropped _ => true
  | _ => false

/-- What is left to read and what is measured after the root of a session. A root is dropped
only from a session with a valid identifier, and measured anew only if there is room. -/
def rootStep (registered : List String) (envs : ℕ → HostEnv) (ids : List String)
    (s : AgentSession) : Option ((ℕ → HostEnv) × List String) :=
  match rootFate registered (envs 0) s with
  | .absent => some (envs, ids)
  | .dropped calls =>
    if validateSessionId s.id = .ok () then
      some (fun n => envs (n + calls), ids.filter (· ≠ s.id))
    else none
  | .kept => some (fun n => envs (n + 1), ids)
  | .measured =>
    if (ids.filter (· ≠ s.id)).length < maxActiveRoots then
      some (fun n => envs (n + 1), ids.filter (· ≠ s.id) ++ [s.id])
    else none

/-- No step fails. -/
def rootsFit (registered : List String) : List AgentSession → (ℕ → HostEnv) → List String → Bool
  | [], _, _ => true
  | s :: rest, envs, ids =>
    match rootStep registered envs ids s with
    | none => false
    | some (envs', ids') => rootsFit registered rest envs' ids'

/-- A root is dropped before the pass ends or fails. -/
def dropsRoot (registered : List String) : List AgentSession → (ℕ → HostEnv) → List String → Bool
  | [], _, _ => false
  | s :: rest, envs, ids =>
    match rootStep registered envs ids s with
    | none => false
    | some (envs', ids') => (rootFate registered (envs 0) s).drops ||
        dropsRoot registered rest envs' ids'

namespace Sketch

/-- The pass succeeds. -/
def settles (sk : Sketch) : Bool :=
  rootsFit sk.measured sk.snapshot (fun n => sk.envs (n + 1)) sk.measured

/-- The pass drops a root. -/
def drops (sk : Sketch) : Bool :=
  dropsRoot sk.measured sk.snapshot (fun n => sk.envs (n + 1)) sk.measured

end Sketch

/-! ## Forgotten roots -/

/-- The same sessions, but for roots that were forgotten; and if none was, the same rows. -/
structure Unrooted (w w' : World) : Prop where
  sessions : ∀ {id s}, w.registry.sessions.lookup id = some s →
    w'.registry.sessions.lookup id = some s ∨
      s.processRoot.isSome = true ∧ w'.registry.sessions.lookup id = some s.withoutRoot
  still : (∀ id, w'.registry.sessions.lookup id = w.registry.sessions.lookup id) →
    w'.registry.sessions = w.registry.sessions ∧ w'.db.sessions = w.db.sessions
  events : w'.registry.events = w.registry.events
  eventRows : w'.db.events = w.db.events
  alerts : w'.inner.alerts = w.inner.alerts

namespace Unrooted

variable {w v u : World}

/-- Nothing of it changed. -/
theorem of_same {w' : World} (hr : SameRegistry w.registry w'.registry)
    (hrows : w'.db.sessions = w.db.sessions) (hevents : w'.db.events = w.db.events)
    (halerts : w'.inner.alerts = w.inner.alerts) : Unrooted w w' where
  sessions h := Or.inl (hr.sessions ▸ h)
  still _ := ⟨hr.sessions, hrows⟩
  events := hr.events
  eventRows := hevents
  alerts := halerts

theorem refl (w : World) : Unrooted w w :=
  .of_same (SameRegistry.refl _) rfl rfl rfl

/-- A root that was forgotten does not come back. -/
theorem still_left (h : Unrooted w v) (h' : Unrooted v u)
    (hsame : ∀ id, u.registry.sessions.lookup id = w.registry.sessions.lookup id) (id : String) :
    v.registry.sessions.lookup id = w.registry.sessions.lookup id := by
  cases hw : w.registry.sessions.lookup id with
  | none =>
    cases hv : v.registry.sessions.lookup id with
    | none => rfl
    | some t =>
      have hu := hsame id
      rw [hw] at hu
      rcases h'.sessions hv with ht | ⟨-, ht⟩
      · rw [hu] at ht
        cases ht
      · rw [hu] at ht
        cases ht
  | some s =>
    rcases h.sessions hw with hv | ⟨hroot, hv⟩
    · exact hv
    · have hu := hsame id
      rw [hw] at hu
      rcases h'.sessions hv with ht | ⟨hno, -⟩
      · rw [hu] at ht
        rw [Option.some.inj ht] at hroot
        cases hroot
      · cases hno

theorem trans (h : Unrooted w v) (h' : Unrooted v u) : Unrooted w u where
  sessions {id s} hs := by
    rcases h.sessions hs with hv | ⟨hroot, hv⟩
    · exact h'.sessions hv
    · rcases h'.sessions hv with hu | ⟨hno, -⟩
      · exact Or.inr ⟨hroot, hu⟩
      · cases hno
  still hsame := by
    have hv := still_left h h' hsame
    obtain ⟨hsessions, hrows⟩ := h.still hv
    obtain ⟨hsessions', hrows'⟩ := h'.still fun id => (hsame id).trans (hv id).symm
    exact ⟨hsessions'.trans hsessions, hrows'.trans hrows⟩
  events := h'.events.trans h.events
  eventRows := h'.eventRows.trans h.eventRows
  alerts := h'.alerts.trans h.alerts

/-- Some root was forgotten, or none. -/
def Forgot (dropped : Bool) (w w' : World) : Prop :=
  if dropped then ∃ id s, w.registry.sessions.lookup id = some s ∧ s.processRoot.isSome = true ∧
    w'.registry.sessions.lookup id = some s.withoutRoot
  else ∀ id, w'.registry.sessions.lookup id = w.registry.sessions.lookup id

/-- What was forgotten stays so. -/
theorem Forgot.more (h : Forgot true w v) (h' : Unrooted v u) : Forgot true w u := by
  obtain ⟨id, s, hs, hroot, hv⟩ := h
  refine ⟨id, s, hs, hroot, ?_⟩
  rcases h'.sessions hv with hu | ⟨hno, -⟩
  · exact hu
  · cases hno

theorem Forgot.after {dropped : Bool} (h : Forgot false w v) (h' : Forgot dropped v u) :
    Forgot dropped w u := by
  have hsame : ∀ id, v.registry.sessions.lookup id = w.registry.sessions.lookup id := h
  cases dropped with
  | true =>
    obtain ⟨id, s, hs, hroot, hu⟩ := h'
    exact ⟨id, s, (hsame id).symm.trans hs, hroot, hu⟩
  | false => exact fun id => (h' id).trans (hsame id)

end Unrooted

/-! ## One session -/

section Steps

open Unrooted

variable {h : HostWorld} {s : AgentSession} {registered : List String} {valid : ValidRoots}

theorem unrooted_entered (w : World) (env : Env) : Unrooted w (w.entered env) :=
  .of_same (SameRegistry.refl _) rfl rfl rfl

/-- Without its root a session differs. -/
theorem withoutRoot_ne (hroot : s.processRoot.isSome = true) : s.withoutRoot ≠ s := by
  intro he
  rw [← he] at hroot
  cases hroot

variable {w : World} {Q : Unit → HostWorld → Prop} {E : HostFault → HostWorld → Prop}
  {cfg : CoreConfig}

theorem lookup_withoutRoot {w' : World} (hs : w.registry.sessions.lookup s.id = some s)
    (hr : SameRegistry (w.withSession s.id s.withoutRoot).registry w'.registry) (id : String) :
    w'.registry.sessions.lookup id =
      if id = s.id then some s.withoutRoot else w.registry.sessions.lookup id := by
  rw [hr.sessions]
  show (w.registry.sessions.adjust s.id fun _ => s.withoutRoot).lookup id = _
  rw [Dict.lookup_adjust, hs]
  rfl

theorem unrooted_withoutRoot {w' : World} (hs : w.registry.sessions.lookup s.id = some s)
    (hroot : s.processRoot.isSome = true)
    (hr : SameRegistry (w.withSession s.id s.withoutRoot).registry w'.registry)
    (hevents : w'.db.events = w.db.events) (halerts : w'.inner.alerts = w.inner.alerts) :
    Unrooted w w' where
  sessions {id t} ht := by
    rw [lookup_withoutRoot hs hr]
    split
    · rename_i hid
      rw [hid, hs] at ht
      cases ht
      exact Or.inr ⟨hroot, rfl⟩
    · exact Or.inl ht
  still hsame := by
    have hid := hsame s.id
    rw [lookup_withoutRoot hs hr, if_pos rfl, hs] at hid
    exact absurd (Option.some.inj hid) (withoutRoot_ne hroot)
  events := hr.events
  eventRows := hevents
  alerts := halerts

/-- A root is dropped, if the identifier of the session is valid. -/
theorem wp_dropRoot_outcome (hs : h.world.registry.sessions.lookup s.id = some s)
    (hroot : s.processRoot.isSome = true) (hQ : validateSessionId s.id = .ok () → ∀ h',
      h'.sketch = ((h.sketch.forget s.id).change s.id fun _ => s.withoutRoot).skip 1 →
      Unrooted h.world h'.world → Q () h')
    (hbad : validateSessionId s.id ≠ .ok () → ∀ f h', Unrooted h.world h'.world →
      Forgot false h.world h'.world → E f h') (hE : ∀ f h', Denied f → E f h') :
    wp (dropRoot s.id) h Q E := by
  unfold dropRoot unregisterSession
  rw [wp_bind, wp_modify, wp_callCore]
  refine wp_mono (wp_clearProcessRoot_outcome hs hroot fun hok w' hw' => ?_)
    (fun _ _ h => h) ?_
  · have hr := hw'.registry
    refine hQ hok _ ?_ ?_
    · refine Sketch.ext hr.sessions hw'.integrations ?_ rfl
      show (h.roots.filter _).map _ = (h.roots.map _).filter _
      rw [List.filter_map]
      rfl
    · refine unrooted_withoutRoot hs hroot ⟨hr.sessions, hr.externalIndex, hr.events⟩ ?_
        hw'.alerts
      show w'.db.events = _
      rw [(Repository.upsertSessionSql_ok hw'.row).1]
      rfl
  · rintro f w' (hf | ⟨⟨e, rfl⟩, hno, rfl⟩)
    · exact hE _ _ (denied_of_storeFails hf)
    · exact hbad hno _ _ (unrooted_entered _ _) fun _ => rfl

/-- The root of session `s` was dealt with. -/
structure Stepped (registered : List String) (s : AgentSession) (h h' : HostWorld) : Prop where
  step : rootStep registered h.envs h.sketch.measured s = some (h'.envs, h'.sketch.measured)
  unrooted : Unrooted h.world h'.world
  forgot : Forgot (rootFate registered (h.envs 0) s).drops h.world h'.world
  others : ∀ id, id ≠ s.id →
    h'.world.registry.sessions.lookup id = h.world.registry.sessions.lookup id

/-- The root of session `s` was the reason to fail, or the repository was. -/
def StepFails (registered : List String) (s : AgentSession) (h : HostWorld) (f : HostFault)
    (h' : HostWorld) : Prop :=
  Denied f ∨ rootStep registered h.envs h.sketch.measured s = none ∧
    Unrooted h.world h'.world ∧ Forgot false h.world h'.world

/-- The world stays. -/
theorem Stepped.of_world {h' : HostWorld} (hworld : h'.world = h.world)
    (hstep : rootStep registered h.envs h.sketch.measured s = some (h'.envs, h'.sketch.measured))
    (hfate : (rootFate registered (h.envs 0) s).drops = false) : Stepped registered s h h' where
  step := hstep
  unrooted := hworld ▸ Unrooted.refl _
  forgot := by
    rw [hfate, hworld]
    exact fun _ => rfl
  others _ _ := by rw [hworld]

theorem wp_dropped {h₁ : HostWorld} {calls : ℕ}
    (hs : h.world.registry.sessions.lookup s.id = some s) (hroot : s.processRoot.isSome = true)
    (hfate : rootFate registered (h.envs 0) s = .dropped calls)
    (hworld : h₁.world = h.world) (hroots : h₁.roots = h.roots)
    (henvs : ∀ n, h₁.envs (n + 1) = h.envs (n + calls)) :
    wp (do dropRoot s.id; pure valid) h₁ (fun _ => Stepped registered s h)
      (StepFails registered s h) := by
  have hs₁ : h₁.world.registry.sessions.lookup s.id = some s := hworld ▸ hs
  rw [wp_bind]
  refine wp_dropRoot_outcome hs₁ hroot (fun hok h' hsketch hunrooted => ?_)
    (fun hbad f h' hunrooted hforgot => Or.inr ?_) fun _ _ hf => Or.inl hf
  · rw [hworld] at hunrooted
    have hmeasured : h'.sketch.measured = h.sketch.measured.filter (· ≠ s.id) := by
      rw [hsketch]
      show (h₁.roots.map _).filter _ = _
      rw [hroots]
      rfl
    have hrest : h'.envs = fun n => h.envs (n + calls) := by
      have := congrArg Sketch.envs hsketch
      exact this.trans (funext henvs)
    have hlookup : ∀ id, h'.world.registry.sessions.lookup id =
        if id = s.id then some s.withoutRoot else h.world.registry.sessions.lookup id := by
      intro id
      have hsessions := congrArg Sketch.sessions hsketch
      have hadjust : h'.world.registry.sessions =
          h₁.world.registry.sessions.adjust s.id fun _ => s.withoutRoot := hsessions
      rw [hadjust, Dict.lookup_adjust, hworld, hs]
      rfl
    refine ⟨?_, hunrooted, ?_, fun id hid => by rw [hlookup, if_neg hid]⟩
    · rw [hmeasured, hrest]
      simp only [rootStep, hfate, if_pos hok]
    · rw [hfate]
      exact ⟨s.id, s, hs, hroot, by rw [hlookup, if_pos rfl]⟩
  · rw [hworld] at hunrooted hforgot
    refine ⟨?_, hunrooted, hforgot⟩
    simp only [rootStep, hfate, if_neg hbad]

theorem wp_keepRoot_outcome {observed : ProcessIdentity} {root : ProcessIdentity}
    (hroot : s.processRoot = some root) (hactive : isTerminal s.status = false)
    (hlive : h.env.live root = some observed) :
    wp (keepRoot registered s observed valid) (h.called h.world)
      (fun _ => Stepped registered s h) (StepFails registered s h) := by
  have hlive' : (h.envs 0).live root ≠ none := by
    rw [show (h.envs 0).live root = some observed from hlive]
    exact Option.some_ne_none _
  unfold keepRoot
  dsimp only
  split
  · rename_i hunknown
    have hfate : rootFate registered (h.envs 0) s = .kept := by
      simp [rootFate, hroot, hactive, hlive', hunknown]
    refine Stepped.of_world rfl ?_ (by rw [hfate]; rfl)
    simp only [rootStep, hfate]
    rfl
  · rename_i hknown
    cases hcontains : registered.contains s.id with
    | true =>
      have hfate : rootFate registered (h.envs 0) s = .kept := by
        simp only [rootFate, hroot, hactive, if_neg hlive', hcontains, or_true, if_true,
          Bool.false_eq_true, if_false]
      refine Stepped.of_world rfl ?_ (by rw [hfate]; rfl)
      simp only [rootStep, hfate]
      rfl
    | false =>
      have hfate : rootFate registered (h.envs 0) s = .measured := by
        simp only [rootFate, hroot, hactive, if_neg hlive', hcontains, hknown, or_false,
          Bool.false_eq_true, if_false]
      have hlength : ((h.roots.filter fun r => r.sessionId ≠ s.id).map (·.sessionId)) =
          h.sketch.measured.filter (· ≠ s.id) := by
        show _ = (h.roots.map _).filter _
        rw [List.filter_map]
        rfl
      have hroom : (h.sketch.measured.filter (· ≠ s.id)).length =
          (h.roots.filter fun r => r.sessionId ≠ s.id).length := by
        rw [← hlength, List.length_map]
      simp only [Bool.not_false, onlyIf, if_true, registerSession, unregisterSession, wp_bind,
        wp_modify, wp_get, HostWorld.called_roots]
      split
      · rename_i hfull
        refine Or.inr ⟨?_, Unrooted.refl _, fun _ => rfl⟩
        have hno : ¬ (h.sketch.measured.filter (· ≠ s.id)).length < maxActiveRoots := by
          rw [hroom]
          exact not_lt.2 hfull
        simp only [rootStep, hfate, if_neg hno]
      · rename_i hfree
        refine Stepped.of_world rfl ?_ (by rw [hfate]; rfl)
        have hyes : (h.sketch.measured.filter (· ≠ s.id)).length < maxActiveRoots := by
          rw [hroom]
          exact not_le.1 hfree
        simp only [rootStep, hfate, if_pos hyes]
        refine congrArg some (Prod.ext rfl ?_)
        show _ = ((h.roots.filter _) ++ [_]).map _
        rw [List.map_append, hlength]
        rfl

/-- The root of one session. -/
theorem wp_reconcileSession_outcome (hs : h.world.registry.sessions.lookup s.id = some s) :
    wp (reconcileSession registered valid s) h (fun _ => Stepped registered s h)
      (StepFails registered s h) := by
  unfold reconcileSession
  split
  · rename_i hnone
    have hfate : rootFate registered (h.envs 0) s = .absent := by
      simp only [rootFate, hnone]
    refine Stepped.of_world rfl ?_ (by rw [hfate]; rfl)
    simp only [rootStep, hfate]
  · rename_i root hroot
    have hsome : s.processRoot.isSome = true := by rw [hroot]; rfl
    split
    · rename_i hterminal
      have hfate : rootFate registered (h.envs 0) s = .dropped 1 := by
        simp [rootFate, hroot, hterminal]
      exact wp_dropped hs hsome hfate rfl rfl fun _ => rfl
    · rename_i hactive
      simp only [liveProcess, wp_bind, wp_resolveProcessIdentity, wp_pure]
      split
      · rename_i hnone
        have hdead : (h.envs 0).live root = none := hnone
        have hfate : rootFate registered (h.envs 0) s = .dropped 2 := by
          simp [rootFate, hroot, hactive, hdead]
        exact wp_dropped hs hsome hfate rfl rfl fun _ => rfl
      · rename_i observed hlive
        exact wp_keepRoot_outcome hroot (by simpa using hactive) hlive

/-! ## The pass -/

theorem wp_reconcileSessions_outcome {sessions : List AgentSession}
    (hnodup : (sessions.map (·.id)).Nodup)
    (hs : ∀ s ∈ sessions, h.world.registry.sessions.lookup s.id = some s) :
    wp (sessions.foldlM (reconcileSession registered) valid) h
      (fun _ h' => rootsFit registered sessions h.envs h.sketch.measured = true ∧
        Unrooted h.world h'.world ∧
        Forgot (dropsRoot registered sessions h.envs h.sketch.measured) h.world h'.world)
      (fun f h' => Denied f ∨ rootsFit registered sessions h.envs h.sketch.measured = false ∧
        Unrooted h.world h'.world ∧
        Forgot (dropsRoot registered sessions h.envs h.sketch.measured) h.world h'.world) := by
  induction sessions generalizing h valid with
  | nil => exact ⟨rfl, Unrooted.refl _, fun _ => rfl⟩
  | cons s rest ih =>
    rw [List.map_cons, List.nodup_cons] at hnodup
    rw [List.foldlM_cons, wp_bind]
    refine wp_mono (wp_reconcileSession_outcome (hs s (by simp))) (fun valid' h₁ h₁step => ?_) ?_
    · obtain ⟨hstep, hunrooted, hforgot, hothers⟩ := h₁step
      have hrest : ∀ t ∈ rest, h₁.world.registry.sessions.lookup t.id = some t := by
        intro t ht
        rw [hothers t.id fun he => hnodup.1 (List.mem_map.2 ⟨t, ht, he⟩)]
        exact hs t (by simp [ht])
      have hjoin : ∀ {dropped : Bool} {h' : HostWorld}, Unrooted h₁.world h'.world →
          Forgot dropped h₁.world h'.world →
          Forgot ((rootFate registered (h.envs 0) s).drops || dropped) h.world h'.world := by
        intro dropped h' hunrooted' hforgot'
        cases hdrops : (rootFate registered (h.envs 0) s).drops with
        | true =>
          rw [hdrops] at hforgot
          exact hforgot.more hunrooted'
        | false =>
          rw [hdrops] at hforgot
          exact hforgot.after hforgot'
      simp only [rootsFit, dropsRoot, hstep]
      refine wp_mono (ih hnodup.2 hrest) ?_ ?_
      · rintro _ h' ⟨hfit, hunrooted', hforgot'⟩
        exact ⟨hfit, hunrooted.trans hunrooted', hjoin hunrooted' hforgot'⟩
      · rintro f h' (hf | ⟨hfit, hunrooted', hforgot'⟩)
        · exact Or.inl hf
        · exact Or.inr ⟨hfit, hunrooted.trans hunrooted', hjoin hunrooted' hforgot'⟩
    · rintro f h' (hf | ⟨hstep, hunrooted, hforgot⟩)
      · exact Or.inl hf
      · simp only [rootsFit, dropsRoot, hstep]
        exact Or.inr ⟨trivial, hunrooted, hforgot⟩

/-- The adapters of a source with a connector can be set. -/
theorem wp_setAdapter_outcome {source : AgentSource} {attribution : AttributionQuality}
    {current : List AdapterCapabilities} (hsource : source ≠ .unknown)
    (hE : ∀ f h', Denied f → E f h') (hsame : Q () h)
    (hQ : ∀ h', SameRegistry h.world.registry h'.world.registry →
      Unrooted h.world h'.world → Q () h') :
    wp (setAdapterAttributionWithSnapshot cfg source attribution current) h Q E := by
  have hfind : ∃ template, builtinAdapterCapabilities.find? (·.source = source) = some template := by
    cases source <;> first | exact absurd rfl hsource | exact ⟨_, rfl⟩
  obtain ⟨template, htemplate⟩ := hfind
  simp only [setAdapterAttributionWithSnapshot, htemplate]
  split
  · exact hsame
  · simp only [wp_bind, wp_get, ingestCore, wp_callCore, wp_pure, AppCore.ingest,
      AppCore.handleIngest]
    refine wp_mono (wp_integrationHealth_outcome fun w' hr halerts hrows hevents _ => ?_)
      (fun _ _ h => h) fun f w' hf => hE _ _ (denied_of_storeFails hf)
    refine hQ _ ?_ (.of_same ?_ ?_ ?_ ?_)
    · exact registry_flush w' _ ▸ hr
    · exact registry_flush w' _ ▸ hr
    · show (World.flush w' _).store.db.sessions = _
      rw [store_flush]
      exact hrows
    · show (World.flush w' _).store.db.events = _
      rw [store_flush]
      exact hevents
    · exact (World.alerts_flush w' _).trans halerts

theorem wp_reconcileAdapters_outcome {dropped : Bool}
    {sources : List (AgentSource × AttributionQuality)} (hunrooted : Unrooted w h.world)
    (hforgot : Forgot dropped w h.world) :
    wp (reconcileAdapterAttribution cfg sources) h
      (fun _ h' => Unrooted w h'.world ∧ Forgot dropped w h'.world) (fun f _ => Denied f) := by
  unfold reconcileAdapterAttribution
  rw [wp_bind]
  refine wp_forM (I := fun h' : HostWorld => Unrooted w h'.world ∧ Forgot dropped w h'.world) _ _
    (fun capabilities hmem h' hh => ?_) ⟨hunrooted, hforgot⟩
  have hsource : capabilities.source ≠ .unknown := by
    revert capabilities
    decide
  refine wp_setAdapter_outcome hsource (fun _ _ hf => hf) hh fun h'' hr hunrooted' => ?_
  have hstill : Forgot false h'.world h''.world := fun id => by rw [hr.sessions]
  refine ⟨hh.1.trans hunrooted', ?_⟩
  cases dropped with
  | true => exact hh.2.more hunrooted'
  | false => exact hh.2.after hstill

theorem nodup_snapshot {sk : Sketch}
    (hk : ∀ {id s}, sk.sessions.lookup id = some s → s.id = id) :
    (sk.snapshot.map (·.id)).Nodup := by
  have hall := Dict.nodup_valuesBy_map (f := AgentSession.id) (fun k v h => hk h)
    (sk.envs 0).core.sessionsRank
  have hsorted := ((List.perm_insertionSort (fun a b : AgentSession =>
    b.lastEventAtMs ≤ a.lastEventAtMs) _).map AgentSession.id).nodup_iff.2 hall
  exact hsorted.sublist ((List.take_sublist _ _).map _)

/-- The pass succeeds exactly if the roots fit, unless the repository fails, and it only forgets
roots. -/
theorem wp_reconcileMetricRoots_outcome (hk : Keyed h.world.registry) :
    wp (reconcileMetricRoots cfg) h
      (fun _ h' => h.sketch.settles = true ∧ Unrooted h.world h'.world ∧
        Forgot h.sketch.drops h.world h'.world)
      (fun f h' => Denied f ∨ h.sketch.settles = false ∧ Unrooted h.world h'.world ∧
        Forgot h.sketch.drops h.world h'.world) := by
  unfold reconcileMetricRoots
  rw [wp_bind, wp_snapshotSessions, wp_bind, wp_get, wp_bind, snapshot_sketch]
  have hstored : ∀ s ∈ h.sketch.snapshot,
      (h.called h.world).world.registry.sessions.lookup s.id = some s :=
    fun s hs => (mem_snapshot hk).1 hs
  refine wp_mono (wp_reconcileSessions_outcome (nodup_snapshot hk.id) hstored) ?_ fun _ _ h => h
  rintro valid h₁ ⟨hfit, hunrooted, hforgot⟩
  rw [wp_bind]
  have hforget : wp ((h.called h.world).roots.map (·.sessionId) |>.forM fun sessionId =>
      onlyIf (!valid.sessionIds.contains sessionId) (unregisterSession sessionId)) h₁
      (fun _ h' => h'.world = h₁.world) (fun _ _ => False) := by
    refine wp_forM (I := fun h' : HostWorld => h'.world = h₁.world) _ _ (fun id _ h' hh => ?_) rfl
    rw [wp_onlyIf]
    exact ⟨fun _ => hh, fun _ => hh⟩
  refine wp_mono hforget (fun _ h₂ hworld => ?_) fun _ _ hf => hf.elim
  have hunrooted₂ : Unrooted (h.called h.world).world h₂.world := hworld ▸ hunrooted
  have hforgot₂ : Forgot h.sketch.drops (h.called h.world).world h₂.world := hworld ▸ hforgot
  refine wp_mono (wp_reconcileAdapters_outcome hunrooted₂ hforgot₂) ?_ fun _ _ hf => Or.inl hf
  rintro _ h' ⟨hunrooted', hforgot'⟩
  exact ⟨hfit, hunrooted', hforgot'⟩

end Steps

end Host

end LlmNotch
