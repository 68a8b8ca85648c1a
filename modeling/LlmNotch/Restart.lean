import LlmNotch.CoreSteps

/-!
# Restarting

What `AppCore::new` builds from the rows of a database. The registry is the result of
inserting the selected sessions one after another and putting back their events in order
(`restoredRegistry`); its lookups, its size and the next sequence of every session are
computed here once. Loading a database does not change it.
-/

namespace LlmNotch

namespace SessionRegistry

/-- Store a session and index it. -/
def putSession (r : SessionRegistry) (s : AgentSession) : SessionRegistry :=
  { r with
    externalIndex := r.externalIndex.insert s.key s.id
    sessions := r.sessions.insert s.id s }

/-- The sessions a restore inserts. -/
def restoredSessions (sessions : List AgentSession) : List AgentSession :=
  (sessions.insertionSort restoreBefore).take maxSessions

/-- The events a restore puts back into a registry. -/
def restoredEvents (r : SessionRegistry) (events : List SessionEvent) : List SessionEvent :=
  (events.filter fun e => (r.sessions.lookup e.sessionId).isSome).insertionSort eventBefore

/-- The registry after a restore. -/
def restoredRegistry (sessions : List AgentSession) (events : List SessionEvent) :
    SessionRegistry :=
  let r := (restoredSessions sessions).foldl putSession new
  (restoredEvents r events).foldl pushEvent r

variable {rows : List AgentSession} {r : SessionRegistry} {Q : Unit → SessionRegistry → Prop}
  {E : Fault → SessionRegistry → Prop}

theorem wp_upsertAll (hQ : Q () (rows.foldl putSession r)) (hE : ∀ e r', E (.err e) r') :
    wp (rows.forM upsertSession) r Q E := by
  induction rows generalizing r with
  | nil => exact hQ
  | cons s rows ih =>
    show wp (upsertSession s >>= fun _ => rows.forM upsertSession) r Q E
    simp only [upsertSession, wp_bind, wp_check, wp_modify]
    exact ⟨fun _ _ => ih hQ, fun e _ => hE e _⟩

theorem wp_restore {sessions : List AgentSession} {events : List SessionEvent}
    (hQ : Q () (restoredRegistry sessions events)) (hE : ∀ e r', E (.err e) r') :
    wp (restore sessions events) new Q E := by
  unfold restore
  rw [wp_bind, wp_modify, wp_bind]
  exact wp_upsertAll hQ hE

/-! ## Sessions -/

theorem lookup_putAll {id : String} :
    ((rows.foldl putSession r).sessions.lookup id).isSome = true ↔
      (∃ s ∈ rows, s.id = id) ∨ (r.sessions.lookup id).isSome = true := by
  induction rows generalizing r with
  | nil => simp
  | cons s rows ih =>
    rw [List.foldl_cons, ih]
    simp only [putSession, Dict.lookup_insert_ite, List.mem_cons, exists_eq_or_imp]
    by_cases h : id = s.id
    · simp [h]
    · simp [h, Ne.symm h]

theorem keyed_putAll (hr : ∀ {id s}, r.sessions.lookup id = some s → s.id = id) {id : String}
    {s : AgentSession} (h : (rows.foldl putSession r).sessions.lookup id = some s) : s.id = id := by
  induction rows generalizing r with
  | nil => exact hr h
  | cons t rows ih =>
    refine ih (fun {i u} hu => ?_) h
    simp only [putSession, Dict.lookup_insert_ite] at hu
    split at hu
    · rename_i hi
      rw [← Option.some.inj hu, hi]
    · exact hr hu

theorem size_putAll (rows : List AgentSession) (r : SessionRegistry) :
    (rows.foldl putSession r).len ≤ r.len + rows.length := by
  induction rows generalizing r with
  | nil => simp
  | cons s rows ih =>
    have hlen : (putSession r s).len ≤ r.len + 1 := Dict.size_insert_le _ _ _
    have := ih (putSession r s)
    rw [List.foldl_cons, List.length_cons]
    omega

/-! ## Events -/

theorem sessions_pushAll (events : List SessionEvent) (r : SessionRegistry) :
    (events.foldl pushEvent r).sessions = r.sessions := by
  induction events generalizing r with
  | nil => rfl
  | cons e events ih => exact ih _

theorem externalIndex_pushAll (events : List SessionEvent) (r : SessionRegistry) :
    (events.foldl pushEvent r).externalIndex = r.externalIndex := by
  induction events generalizing r with
  | nil => rfl
  | cons e events ih => exact ih _

end SessionRegistry

/-! ## The core -/

/-- What `AppCore::new` builds. -/
def restartedCore (cfg : CoreConfig) (settings : PublicSettings) (db : Database) :
    AppCoreInner where
  registry := SessionRegistry.restoredRegistry
    ((Repository.selectedSessions db).map (Repository.reload cfg)) (Repository.selectedEvents db)
  settings := db.settings.getD settings
  integrations := db.integrations.map (·.capabilities)
  streamSequence := 0
  coalescer := {}
  alerts := {}
  latestMetrics := none

theorem wp_query {α : Type} {s : Store} {Q : α → Store → Prop} {E : Fault → Store → Prop}
    {sql : Database → α} (hQ : ∀ t, t.db = s.db → Q (sql s.db) t) (hE : ∀ f t, E f t) :
    wp (Repository.query sql) s Q E := by
  refine Repository.wp_statement (fun a db h => ?_) (fun _ _ => hE _ _)
  obtain ⟨rfl, rfl⟩ := Prod.mk.inj (Except.ok.inj h)
  exact hQ _ rfl

theorem wp_new (cfg : CoreConfig) (settings : PublicSettings) (s : Store) :
    wp (AppCore.new cfg settings) s
      (fun inner t => inner = restartedCore cfg settings s.db ∧ t.db = s.db)
      (fun _ _ => True) := by
  unfold AppCore.new
  rw [wp_bind]
  refine wp_query (fun t₁ h₁ => ?_) fun _ _ => trivial
  rw [wp_bind]
  refine wp_query (fun t₂ h₂ => ?_) fun _ _ => trivial
  rw [wp_bind, AppCore.restored]
  set rows := (Repository.selectedSessions s.db).map (Repository.reload cfg) with hrows
  have hrestore : wp (SessionRegistry.restore rows (Repository.selectedEvents t₁.db))
      SessionRegistry.new (fun _ r => r = SessionRegistry.restoredRegistry rows
        (Repository.selectedEvents t₁.db)) (fun _ _ => True) :=
    SessionRegistry.wp_restore rfl (fun _ _ => trivial)
  split
  · rename_i registry hr
    have hreg := wp_ok hrestore hr
    rw [wp_pure, wp_bind]
    refine wp_query (fun t₃ h₃ => ?_) fun _ _ => trivial
    rw [wp_bind]
    refine wp_query (fun t₄ h₄ => ?_) fun _ _ => trivial
    rw [wp_pure]
    refine ⟨?_, by rw [h₄, h₃, h₂, h₁]⟩
    rw [hreg, h₃, h₂, h₁]
    rfl
  · exact trivial

/-- A restart is a step to the core its database gives, over the same database. -/
theorem restart_spec {cfg : CoreConfig} {s t : CoreState} {env : Env} {settings : PublicSettings}
    (h : coreStep cfg s (.restart env settings) = some t) :
    t.world.inner = restartedCore cfg settings s.world.db ∧ t.world.db = s.world.db := by
  have hnew := wp_new cfg settings { s.world.store with faults := env.faults }
  simp only [coreStep] at h
  split at h
  · rename_i inner store hok
    cases h
    have hspec := wp_ok hnew hok
    exact hspec
  · cases h

theorem startCore_spec {cfg : CoreConfig} {t : CoreState} {env : Env} {settings : PublicSettings}
    {db : Database} (h : startCore cfg env settings db = some t) :
    t.world.inner = restartedCore cfg settings db ∧ t.world.db = db := by
  have hnew := wp_new cfg settings ⟨db, env.faults⟩
  simp only [startCore] at h
  split at h
  · rename_i inner store hok
    cases h
    have hspec := wp_ok hnew hok
    exact hspec
  · cases h

end LlmNotch
