import LlmNotch.Restart
import Mathlib.Logic.Relation

/-!
# Small changes of the world

The changes of which every operation of the core consists (`Change`) : assigning to a stored
session, persisting a session that is stored, adding an event with the next sequence, and so
on. `Evolves` is a chain of them. The rules here say which chain the basic programs make and
how they fail (`EndsWell`).

Two changes can do harm and carry what is known about them : inserting a session
(`Change.insert`) under an identifier that may be taken, and clearing the events of the
registry (`Change.clearEvents`) while rows may have been added. The propositions `fresh`
and `quiet` are the assumptions under which they do not.
-/

namespace LlmNotch

/-! ## The registry -/

/-- An assignment to a session keeps what identifies it, and a status follows another only
along the lifecycle. -/
structure Succeeds (s t : AgentSession) : Prop where
  id : t.id = s.id
  source : t.source = s.source
  externalSessionId : t.externalSessionId = s.externalSessionId
  startedAtMs : t.startedAtMs = s.startedAtMs
  status : isValidTransition s.status t.status = true

theorem isValidTransition_self (status : SessionStatus) :
    isValidTransition status status = true := by
  simp [isValidTransition]

theorem Succeeds.key {s t : AgentSession} (h : Succeeds s t) : t.key = s.key := by
  simp only [AgentSession.key, h.source, h.externalSessionId]

theorem Succeeds.of_status {s t : AgentSession} (hid : t.id = s.id) (hsource : t.source = s.source)
    (hext : t.externalSessionId = s.externalSessionId) (hstart : t.startedAtMs = s.startedAtMs)
    (hstatus : t.status = s.status) : Succeeds s t :=
  ⟨hid, hsource, hext, hstart, hstatus ▸ isValidTransition_self s.status⟩

theorem isValidTransition_of_validate {source target : SessionStatus} {u : Unit}
    (h : validateTransition source target = .ok u) : isValidTransition source target = true := by
  unfold validateTransition at h
  split at h
  · assumption
  · cases h

/-- The index and the sessions are inverse to each other. -/
structure Indexed (r : SessionRegistry) : Prop where
  keyed : ∀ {id s}, r.sessions.lookup id = some s → s.id = id
  indexed : ∀ {k id}, r.externalIndex.lookup k = some id →
    ∃ s, r.sessions.lookup id = some s ∧ s.key = k
  reachable : ∀ {id s}, r.sessions.lookup id = some s → r.externalIndex.lookup s.key = some id

namespace SessionRegistry

/-- Keeping the last elements keeps the last one. -/
theorem getLast?_keepLast_append {α : Type} {n : ℕ} (hn : 0 < n) (xs : List α) (x : α) :
    (keepLast n (xs ++ [x])).getLast? = some x := by
  unfold keepLast
  rw [List.length_append, List.length_singleton, List.drop_append_of_le_length (by omega)]
  simp

theorem eventsFor_pushEvent (r : SessionRegistry) (e : SessionEvent) (id : String) :
    (r.pushEvent e).eventsFor id =
      if id = e.sessionId then keepLast maxEventsPerSession (r.eventsFor e.sessionId ++ [e])
      else r.eventsFor id := by
  unfold eventsFor pushEvent
  simp only [Dict.lookup_insert_ite]
  split
  · rw [Option.getD_some]
    rfl
  · rfl

theorem nextEventSequence_pushEvent (r : SessionRegistry) (e : SessionEvent) (id : String) :
    (r.pushEvent e).nextEventSequence id =
      if id = e.sessionId then e.sequence + 1 else r.nextEventSequence id := by
  unfold nextEventSequence
  rw [eventsFor_pushEvent]
  by_cases h : id = e.sessionId
  · have hpos : 0 < maxEventsPerSession := by decide
    rw [if_pos h, if_pos h, getLast?_keepLast_append hpos]
  · rw [if_neg h, if_neg h]

theorem validateSequence_next (r : SessionRegistry) (id : String) :
    validateSequence (r.eventsFor id).getLast? (r.nextEventSequence id) = .ok () := by
  unfold validateSequence nextEventSequence
  cases (r.eventsFor id).getLast? <;> simp

/-- The default entry an append starts with is overwritten. -/
theorem pushEvent_default (r : SessionRegistry) (e : SessionEvent) :
    pushEvent { r with events := r.events.insert e.sessionId (r.eventsFor e.sessionId) } e =
      r.pushEvent e := by
  simp [pushEvent, eventsFor, AList.insert_insert]

/-- An event with the next sequence is appended. -/
theorem wp_appendEvent {r : SessionRegistry} {e : SessionEvent} {Q : Unit → SessionRegistry → Prop}
    {E : Fault → SessionRegistry → Prop} (hs : (r.sessions.lookup e.sessionId).isSome = true)
    (he : e.sequence = r.nextEventSequence e.sessionId) (hQ : Q () (r.pushEvent e)) :
    wp (appendEvent e) r Q E := by
  unfold appendEvent
  simp only [wp_bind, wp_get, wp_ensure, wp_modify, wp_check, pushEvent_default]
  refine ⟨fun _ => ?_, fun h => by simp [hs] at h⟩
  rw [he, validateSequence_next]
  exact ⟨fun _ _ => hQ, fun _ h => by cases h⟩

end SessionRegistry

/-! ## Changes -/

/-- What identifies a row of `sessions`. -/
def AgentSession.identity (s : AgentSession) : String × AgentSource × String :=
  (s.id, s.source, s.externalSessionId)

/-- The rows of `sessions` stay the same but for other columns, and events only go. -/
structure Shrinks (db db' : Database) : Prop where
  sessions : db'.sessions.map AgentSession.identity = db.sessions.map AgentSession.identity
  events : db'.events.Sublist db.events

theorem Shrinks.ids {db db' : Database} (h : Shrinks db db') :
    db'.sessions.map (·.id) = db.sessions.map (·.id) := by
  have hids := congrArg (List.map Prod.fst) h.sessions
  simp only [List.map_map] at hids
  exact hids

theorem Shrinks.refl (db : Database) : Shrinks db db :=
  ⟨rfl, List.Sublist.refl _⟩

/-- Everything but the sessions, the index and the events of the registry may differ. -/
structure SameRegistry (r r' : SessionRegistry) : Prop where
  sessions : r'.sessions = r.sessions
  externalIndex : r'.externalIndex = r.externalIndex
  events : r'.events = r.events

theorem SameRegistry.refl (r : SessionRegistry) : SameRegistry r r :=
  ⟨rfl, rfl, rfl⟩

theorem SameRegistry.resolveExternal {r r' : SessionRegistry} (h : SameRegistry r r')
    (source : AgentSource) (externalSessionId : String) :
    r'.resolveExternal source externalSessionId = r.resolveExternal source externalSessionId := by
  simp only [SessionRegistry.resolveExternal, h.sessions, h.externalIndex]

/-- One small change of the world. -/
inductive Change (fresh quiet : Prop) : World → World → Prop
  | assign {w : World} {id : String} {s t : AgentSession}
      (hs : w.registry.sessions.lookup id = some s) (ht : Succeeds s t) :
      Change fresh quiet w
        (w.setRegistry { w.registry with sessions := w.registry.sessions.adjust id fun _ => t })
  | store {w : World} {id : String} {s : AgentSession} {store : Store}
      (hs : w.registry.sessions.lookup id = some s)
      (hdb : Repository.upsertSessionSql s w.db = .ok ((), store.db)) :
      Change fresh quiet w (w.setStore store)
  | pushEvent {w : World} {e : SessionEvent}
      (hs : (w.registry.sessions.lookup e.sessionId).isSome = true)
      (he : e.sequence = w.registry.nextEventSequence e.sessionId) :
      Change fresh quiet w (w.setRegistry (w.registry.pushEvent e))
  | storeEvent {w : World} {e : SessionEvent} {store : Store}
      (he : e.sequence < w.registry.nextEventSequence e.sessionId)
      (hdb : Repository.insertEventSql e w.db = .ok ((), store.db)) :
      Change fresh quiet w (w.setStore store)
  | removeRows {w : World} {id : String} {store : Store}
      (hdb : store.db = Repository.withoutSession id w.db) :
      Change fresh quiet w (w.setStore store)
  | remove {w : World} {id : String} {s : AgentSession}
      (hs : w.registry.sessions.lookup id = some s)
      (hrow : ∀ row ∈ w.db.sessions, row.id ≠ id) (hev : ∀ e ∈ w.db.events, e.sessionId ≠ id) :
      Change fresh quiet w (w.setRegistry { w.registry with
        sessions := w.registry.sessions.erase id
        externalIndex := w.registry.externalIndex.erase s.key
        events := w.registry.events.erase id })
  | insert {w : World} {s : AgentSession} (hk : w.registry.externalIndex.lookup s.key = none)
      (hlen : w.registry.len < maxSessions)
      (hfresh : fresh → w.registry.sessions.lookup s.id = none) :
      Change fresh quiet w (w.setRegistry { w.registry with
        externalIndex := w.registry.externalIndex.insert s.key s.id
        sessions := w.registry.sessions.insert s.id s })
  | reinsert {w : World} {s t : AgentSession} (hs : w.registry.sessions.lookup t.id = some s)
      (ht : Succeeds s t) (hk : w.registry.externalIndex.lookup t.key = some t.id) :
      Change fresh quiet w (w.setRegistry { w.registry with
        externalIndex := w.registry.externalIndex.insert t.key t.id
        sessions := w.registry.sessions.insert t.id t })
  | clearMetrics {w : World} :
      Change fresh quiet w (w.setRegistry { w.registry with
        sessions := w.registry.sessions.mapValues fun s => { s with latestMetric := none } })
  | clearEvents {w : World} (hquiet : quiet → w.db.events = []) :
      Change fresh quiet w (w.setRegistry { w.registry with events := ∅ })
  | other {w w' : World} (hr : SameRegistry w.registry w'.registry)
      (hdb : Shrinks w.db w'.db) : Change fresh quiet w w'

/-- A chain of changes. -/
abbrev Evolves (fresh quiet : Prop) : World → World → Prop :=
  Relation.ReflTransGen (Change fresh quiet)

/-- Every stored sequence is below the next one of its session. -/
def Below (w : World) : Prop :=
  ∀ e ∈ w.db.events, e.sequence < w.registry.nextEventSequence e.sessionId

/-- A section that fails has made a chain of changes. It panics only on a broken index, and
it meets a duplicate sequence only if a stored one was not below the next. -/
structure EndsWell (fresh quiet : Prop) (w₀ : World) (f : Fault) (w : World) : Prop where
  evolves : Evolves fresh quiet w₀ w
  indexed : ∀ message, f = .panic message → ¬ Indexed w.registry
  below : f = .other duplicateSequence → ∃ v, Evolves fresh quiet w₀ v ∧ ¬ Below v

section

variable {fresh quiet : Prop} {w₀ w : World}

section

variable (hw : Evolves fresh quiet w₀ w)

include hw

theorem EndsWell.err (e : CoreError) : EndsWell fresh quiet w₀ (.err e) w :=
  ⟨hw, fun _ h => (by cases h), fun h => (by cases h)⟩

theorem EndsWell.other {detail : String} (hd : detail ≠ duplicateSequence) :
    EndsWell fresh quiet w₀ (.other detail) w :=
  ⟨hw, fun _ h => (by cases h), fun h => absurd (Fault.other.inj h) hd⟩

theorem EndsWell.panic (message : String) (h : ¬ Indexed w.registry) :
    EndsWell fresh quiet w₀ (.panic message) w :=
  ⟨hw, fun _ _ => h, fun h => (by cases h)⟩

/-- A change of the world outside the registry. -/
theorem Evolves.outside {w' : World} (hr : w'.registry = w.registry) (hdb : Shrinks w.db w'.db) :
    Evolves fresh quiet w₀ w' :=
  hw.tail (.other (hr ▸ SameRegistry.refl _) hdb)

theorem Evolves.setStore {store : Store} (h : Shrinks w.db store.db) :
    Evolves fresh quiet w₀ (w.setStore store) :=
  hw.outside rfl h

end

end

/-! ## Programs over the store -/

/-- A program that deletes events at most, and adds none. -/
def StoreShrinks {α : Type} (m : StoreM α) : Prop :=
  ∀ s, wp m s (fun _ t => Shrinks s.db t.db)
    (fun f t => Shrinks s.db t.db ∧ ∃ detail, f = .other detail ∧ detail ≠ duplicateSequence)

section StoreShrinks

open Repository

variable {α β : Type}

theorem Shrinks.trans {a b c : Database} (hab : Shrinks a b) (hbc : Shrinks b c) :
    Shrinks a c :=
  ⟨hbc.sessions.trans hab.sessions, hbc.events.trans hab.events⟩

theorem shrinks_pure (a : α) : StoreShrinks (pure a : StoreM α) :=
  fun s => Shrinks.refl s.db

theorem shrinks_bind {m : StoreM α} {f : α → StoreM β} (hm : StoreShrinks m)
    (hf : ∀ a, StoreShrinks (f a)) : StoreShrinks (m >>= f) := by
  intro s
  rw [wp_bind]
  refine wp_mono (hm s) (fun a t hst => ?_) (fun _ _ h => h)
  exact wp_mono (hf a t) (fun _ u htu => hst.trans htu) (fun _ u h => ⟨hst.trans h.1, h.2⟩)

theorem shrinks_onlyIf {c : Bool} {m : StoreM Unit} (hm : StoreShrinks m) :
    StoreShrinks (onlyIf c m) := by
  intro s
  rw [wp_onlyIf]
  exact ⟨fun _ => hm s, fun _ => Shrinks.refl s.db⟩

theorem shrinks_statement {sql : Database → Except String (α × Database)}
    (h : ∀ db, match sql db with
      | .ok p => Shrinks db p.2
      | .error detail => detail ≠ duplicateSequence) :
    StoreShrinks (statement sql) := by
  intro s
  have hs := h s.db
  refine wp_statement (fun a db hdb => ?_) fun detail hd => ?_
  · rw [hdb] at hs
    exact hs
  · refine ⟨Shrinks.refl s.db, detail, rfl, ?_⟩
    rcases hd with rfl | hd
    · exact diskError_ne
    · rw [hd] at hs
      exact hs

theorem shrinks_execute {sql : Database → Database} (h : ∀ db, Shrinks db (sql db)) :
    StoreShrinks (execute sql) :=
  shrinks_statement h

theorem shrinks_query (sql : Database → α) : StoreShrinks (query sql) :=
  shrinks_statement Shrinks.refl

theorem shrinks_forgetLatestMetrics (db : Database) : Shrinks db (forgetLatestMetrics db) := by
  refine ⟨?_, List.Sublist.refl _⟩
  simp [forgetLatestMetrics, Function.comp_def, AgentSession.identity]

theorem shrinks_trimSessionEvents (sessionId : String) :
    StoreShrinks (trimSessionEvents sessionId) :=
  shrinks_bind (shrinks_query _) fun _ => shrinks_onlyIf <|
    shrinks_execute fun _ => ⟨rfl, List.filter_sublist⟩

theorem shrinks_saveSettings (settings : PublicSettings) :
    StoreShrinks (saveSettings settings) :=
  shrinks_execute fun _ => ⟨rfl, List.Sublist.refl _⟩

theorem shrinks_upsertIntegration (row : IntegrationHealth) :
    StoreShrinks (upsertIntegration row) :=
  shrinks_execute fun _ => ⟨rfl, List.Sublist.refl _⟩

theorem shrinks_storeIdempotencyKey (key : String) (createdAtMs : ℤ) :
    StoreShrinks (storeIdempotencyKey key createdAtMs) := by
  refine shrinks_statement fun db => ?_
  by_cases h : hasKey (·.1) key db.idempotencyKeys = true
  · simpa only [h, if_true] using Shrinks.refl db
  · simp only [h]
    exact ⟨rfl, List.Sublist.refl _⟩

theorem shrinks_recordMetricBucket (scope : String) (sessionId : Option String)
    (bucketStartMs : ℤ) (sample : MetricSample) :
    StoreShrinks (recordMetricBucket scope sessionId bucketStartMs sample) := by
  refine shrinks_statement fun db => ?_
  unfold recordMetricBucketSql
  by_cases hhost : sample.cpuHostPercent.key.isNone = true
  · rw [if_pos hhost]
    show "NOT NULL constraint failed: metric_buckets.cpu_host_percent" ≠ duplicateSequence
    decide
  · rw [if_neg hhost]
    by_cases hcore : sample.cpuCorePercent.key.isNone = true
    · rw [if_pos hcore]
      show "NOT NULL constraint failed: metric_buckets.cpu_core_percent" ≠ duplicateSequence
      decide
    · rw [if_neg hcore]
      exact ⟨rfl, List.Sublist.refl _⟩

theorem shrinks_purgeMetricHistory : StoreShrinks purgeMetricHistory := by
  refine shrinks_statement fun db => ?_
  have h := shrinks_forgetLatestMetrics { db with metricBuckets := [] }
  exact ⟨h.sessions, h.events⟩

theorem shrinks_purgeSessionEvents : StoreShrinks purgeSessionEvents :=
  shrinks_statement fun _ => ⟨rfl, List.nil_sublist _⟩

theorem shrinks_deleteEvents {keep : Database → SessionEvent → Bool} :
    StoreShrinks (statement fun db =>
      let (deleted, events) := deleteWhere (keep db) db.events
      .ok (deleted, { db with events })) :=
  shrinks_statement fun _ => ⟨rfl, List.filter_sublist⟩

theorem shrinks_pruneToTarget (eventsDeleted : ℕ) (sizes : List ℕ) :
    StoreShrinks (pruneToTarget eventsDeleted sizes) := by
  induction sizes generalizing eventsDeleted with
  | nil => exact shrinks_pure _
  | cons bytesAfter sizes ih =>
    unfold pruneToTarget
    split
    · refine shrinks_bind shrinks_deleteEvents fun deleted => ?_
      split
      · exact shrinks_pure _
      · exact ih _
    · exact shrinks_pure _

theorem shrinks_pruneWithMetricRetention (nowMs metricRetentionMs : ℤ) (sizes : List ℕ) :
    StoreShrinks (pruneWithMetricRetention nowMs metricRetentionMs sizes) := by
  refine shrinks_bind shrinks_deleteEvents fun _ => ?_
  refine shrinks_bind (shrinks_statement fun _ => ⟨rfl, List.Sublist.refl _⟩) fun _ => ?_
  refine shrinks_bind (shrinks_onlyIf (shrinks_execute shrinks_forgetLatestMetrics)) fun _ => ?_
  refine shrinks_bind (shrinks_pruneToTarget _ _) fun _ => ?_
  exact shrinks_bind (shrinks_execute Shrinks.refl) fun _ => shrinks_pure _

end StoreShrinks

/-! ## Programs over the world -/

section Rules

open AppCore

variable {fresh quiet : Prop} {w₀ w : World} {α β : Type}

theorem wp_onStore_shrinks {m : StoreM α} (hm : StoreShrinks m) {Q : α → World → Prop}
    (hw : Evolves fresh quiet w₀ w)
    (hQ : ∀ a store, Evolves fresh quiet w₀ (w.setStore store) → Q a (w.setStore store)) :
    wp (onStore m) w Q (EndsWell fresh quiet w₀) := by
  unfold onStore
  rw [wp_zoom]
  refine wp_mono (hm w.store) (fun a store h => hQ a store (hw.setStore h)) ?_
  rintro _ store ⟨h, detail, rfl, hd⟩
  exact EndsWell.other (hw.setStore h) hd

variable {id externalSessionId : String} {s : AgentSession} {E : Fault → World → Prop}
  {source : AgentSource}

/-- Persist a session the registry has. -/
theorem wp_storeSession {Q : Unit → World → Prop} (hw : Evolves fresh quiet w₀ w)
    (hs : w.registry.sessions.lookup id = some s)
    (hQ : ∀ store, Evolves fresh quiet w₀ (w.setStore store) → Q () (w.setStore store)) :
    wp (onStore (Repository.upsertSession s)) w Q (EndsWell fresh quiet w₀) := by
  unfold onStore Repository.upsertSession
  rw [wp_zoom]
  refine Repository.wp_statement (fun _ db hdb => ?_) (fun detail hd => ?_)
  · exact hQ _ (hw.tail (.store hs hdb))
  · refine EndsWell.other (hw.setStore ?_) (Repository.upsertSessionSql_error hd)
    exact Shrinks.refl w.db

/-- The world with another session at an identifier. -/
def World.withSession (w : World) (id : String) (t : AgentSession) : World :=
  w.setRegistry { w.registry with sessions := w.registry.sessions.adjust id fun _ => t }

theorem wp_assign_iff {t : AgentSession} {Q : AgentSession → World → Prop} :
    wp (assign id t) w Q E ↔ Q t (w.withSession id t) := by
  unfold assign onRegistry SessionRegistry.modifySession
  simp only [wp_bind, wp_zoom, wp_modify, wp_pure]
  exact Iff.rfl

theorem lookup_withSession (t : AgentSession) (h : w.registry.sessions.lookup id = some s) :
    (w.withSession id t).registry.sessions.lookup id = some t := by
  simp [World.withSession, Dict.lookup_adjust, h]

/-- The last of two assignments counts. -/
theorem withSession_withSession (w : World) (id : String) (s t : AgentSession) :
    (w.withSession id s).withSession id t = w.withSession id t := by
  simp [World.withSession, World.setRegistry, Dict.adjust_adjust]

/-- Assign to a stored session. -/
theorem wp_assign {t : AgentSession} {Q : AgentSession → World → Prop}
    (hw : Evolves fresh quiet w₀ w) (hs : w.registry.sessions.lookup id = some s)
    (ht : Succeeds s t)
    (hQ : ∀ w', Evolves fresh quiet w₀ w' → w'.registry.sessions.lookup id = some t → Q t w') :
    wp (assign id t) w Q (EndsWell fresh quiet w₀) := by
  rw [wp_assign_iff]
  exact hQ _ (hw.tail (.assign hs ht)) (lookup_withSession t hs)

theorem wp_queuePayload {p : StreamPayload} {Q : Unit → World → Prop}
    (hw : Evolves fresh quiet w₀ w) (hQ : Evolves fresh quiet w₀ (w.push p) → Q () (w.push p)) :
    wp (queuePayload p) w Q E :=
  hQ (hw.outside rfl (Shrinks.refl w.db))

theorem registry_flush (w : World) (env : Env) : (w.flush env).registry = w.registry := by
  unfold World.flush
  split <;> rfl

theorem store_flush (w : World) (env : Env) : (w.flush env).store = w.store := by
  unfold World.flush
  split <;> rfl

section

variable (hw : Evolves fresh quiet w₀ w)

include hw

theorem Evolves.flush (env : Env) : Evolves fresh quiet w₀ (w.flush env) :=
  hw.outside (registry_flush w env) (by
    show Shrinks w.store.db (w.flush env).store.db
    rw [store_flush]
    exact Shrinks.refl w.store.db)

/-- Append an event to a session the registry has, in memory and in the store. -/
theorem wp_appendEvent {env : Env} {kind : SessionEventKind} {level : EventLevel}
    {summary : String} {toolName : Option String} {occurredAtMs : ℤ}
    {Q : SessionEvent → World → Prop} (hs : (w.registry.sessions.lookup id).isSome = true)
    (hQ : ∀ e w', Evolves fresh quiet w₀ w' →
      w'.registry.sessions = w.registry.sessions →
      w'.registry.externalIndex = w.registry.externalIndex → Q e w') :
    wp (appendEvent env id kind level summary toolName occurredAtMs) w Q
      (EndsWell fresh quiet w₀) := by
  unfold appendEvent
  rw [wp_bind, wp_get]
  set e : SessionEvent := ⟨env.uuid, id, w.registry.nextEventSequence id, occurredAtMs, kind,
    level, summary, toolName⟩ with he
  rw [wp_bind, onRegistry, wp_zoom]
  refine SessionRegistry.wp_appendEvent hs rfl ?_
  have hpush : Evolves fresh quiet w₀ (w.setRegistry (w.registry.pushEvent e)) :=
    hw.tail (.pushEvent hs rfl)
  have hnext : e.sequence <
      (w.setRegistry (w.registry.pushEvent e)).registry.nextEventSequence e.sessionId := by
    rw [World.registry, World.setRegistry_inner_registry,
      SessionRegistry.nextEventSequence_pushEvent, if_pos rfl]
    omega
  rw [wp_bind, onStore, wp_zoom, Repository.appendEvent, wp_bind]
  refine Repository.wp_statement (fun _ db hdb => ?_) (fun detail hd => ?_)
  · have hstore : Evolves fresh quiet w₀ ((w.setRegistry (w.registry.pushEvent e)).setStore
        ⟨db, w.store.faults.tail⟩) := hpush.tail (.storeEvent hnext hdb)
    refine wp_mono (shrinks_trimSessionEvents _ _) (fun _ store h => ?_) ?_
    · rw [wp_bind]
      refine wp_queuePayload (hstore.setStore h) fun hw' => ?_
      exact hQ _ _ hw' rfl rfl
    · rintro _ store ⟨h, detail, rfl, hd⟩
      exact EndsWell.other (hstore.setStore h) hd
  · refine ⟨hpush.setStore ?_, fun _ h => (by cases h), fun hdup => ⟨w, hw, fun hbelow => ?_⟩⟩
    · exact Shrinks.refl w.db
    · -- the duplicate has the sequence that was the next one
      obtain ⟨row, hrow, hsession, hsequence⟩ :=
        Repository.insertEventSql_duplicate (Fault.other.inj hdup ▸ hd)
      have hlt := hbelow row hrow
      rw [hsession, hsequence] at hlt
      exact lt_irrefl _ hlt

/-- The checks at the start of a handler change nothing. -/
theorem wp_capabilitiesFor {Q : AdapterCapabilities → World → Prop} (hQ : ∀ c, Q c w) :
    wp (capabilitiesFor source) w Q (EndsWell fresh quiet w₀) := by
  unfold capabilitiesFor
  simp only [wp_bind, wp_get, wp_okOr]
  exact ⟨fun c _ => hQ c, fun _ => EndsWell.err hw _⟩

theorem wp_requireEvents {Q : Unit → World → Prop} (hQ : Q () w) :
    wp (requireEvents source) w Q (EndsWell fresh quiet w₀) := by
  unfold requireEvents
  rw [wp_bind]
  refine wp_capabilitiesFor hw fun c => ?_
  rw [wp_ensure]
  exact ⟨fun _ => hQ, fun _ => EndsWell.err hw _⟩

/-- The session a command refers to is stored, or the index is broken. -/
theorem wp_resolve {f : String → AgentSession → CoreM β} {Q : β → World → Prop}
    (hf : ∀ id s, w.registry.sessions.lookup id = some s →
      wp (f id s) w Q (EndsWell fresh quiet w₀)) :
    wp (do
      let id ← resolveSessionId source externalSessionId
      let s ← resolvedSession id
      f id s) w Q (EndsWell fresh quiet w₀) := by
  simp only [resolveSessionId, resolvedSession, wp_bind, wp_get, wp_okOr, wp_pure, wp_expect]
  refine ⟨fun s hs => ⟨fun t ht => hf s.id t ht, fun hnone => EndsWell.panic hw _ fun hi => ?_⟩,
    fun _ => EndsWell.err hw _⟩
  obtain ⟨id, -, hid⟩ := Option.bind_eq_some_iff.1 hs
  have hkey := hi.keyed hid
  rw [hkey] at hnone
  have hget : w.registry.sessions.lookup id = none := hnone
  rw [hid] at hget
  cases hget

end

/-- The updates of an update are checks and assignments that leave the last sample. -/
theorem wp_updates {I : AgentSession → World → Prop} {cmd : SessionUpdateCommand}
    {f : AgentSession → CoreM β} {Q : β → World → Prop}
    (hassign : ∀ s t w, I s w → Succeeds s t → t.latestMetric = s.latestMetric →
      I t (w.withSession id t)) (herror : ∀ s w e, I s w → E (.err e) w) (h : I s w)
    (hf : ∀ t w', I t w' → wp (f t) w' Q E) :
    wp (do
      let s ← updateLabel id s cmd.label
      let s ← updateWorkspaceLabel id s cmd.workspaceLabel
      let s ← updateStatus id s cmd.status
      f s) w Q E := by
  have hlabel : ∀ {R : AgentSession → World → Prop}, (∀ t w', I t w' → R t w') →
      wp (updateLabel id s cmd.label) w R E := by
    intro R hR
    cases cmd.label with
    | none => exact hR s w h
    | some label =>
      simp only [updateLabel, wp_bind, wp_check, wp_assign_iff]
      refine ⟨fun _ _ => hR _ _ (hassign s _ w h ?_ rfl), fun e _ => herror s w e h⟩
      exact .of_status rfl rfl rfl rfl rfl
  have hworkspace : ∀ {t w' R}, I t w' → (∀ u w', I u w' → R u w') →
      wp (updateWorkspaceLabel id t cmd.workspaceLabel) w' R E := by
    intro t w' R ht hR
    cases cmd.workspaceLabel with
    | none => exact hR t w' ht
    | some workspace =>
      simp only [updateWorkspaceLabel, wp_bind, wp_check, wp_assign_iff]
      refine ⟨fun _ _ => hR _ _ (hassign t _ w' ht ?_ rfl), fun e _ => herror t w' e ht⟩
      exact .of_status rfl rfl rfl rfl rfl
  have hstatus : ∀ {t w' R}, I t w' → (∀ u w', I u w' → R u w') →
      wp (updateStatus id t cmd.status) w' R E := by
    intro t w' R ht hR
    cases cmd.status with
    | none => exact hR t w' ht
    | some status =>
      simp only [updateStatus, wp_bind, wp_check, wp_assign_iff]
      refine ⟨fun _ hv => hR _ _ (hassign t _ w' ht ?_ rfl), fun e _ => herror t w' e ht⟩
      exact ⟨rfl, rfl, rfl, rfl, isValidTransition_of_validate hv⟩
  rw [wp_bind]
  refine hlabel fun t w₁ ht => ?_
  rw [wp_bind]
  refine hworkspace ht fun u w₂ hu => ?_
  rw [wp_bind]
  exact hstatus hu fun v w₃ hv => hf v w₃ hv

/-! ### Checks -/

theorem wp_check_bind {x : Except CoreError Unit} {f : Unit → CoreM β} {Q : β → World → Prop}
    {E : Fault → World → Prop} (hE : x ≠ .ok () → ∀ e, E (.err e) w)
    (hQ : x = .ok () → wp (f ()) w Q E) : wp (check x >>= f) w Q E := by
  rw [wp_bind, wp_check]
  exact ⟨fun _ hx => hQ hx, fun e he => hE (by simp [he]) e⟩

theorem wp_ensure_bind {c : Bool} {e : CoreError} {f : Unit → CoreM β} {Q : β → World → Prop}
    {E : Fault → World → Prop} (hE : ∀ e, E (.err e) w) (hQ : c = true → wp (f ()) w Q E) :
    wp (ensure c e >>= f) w Q E := by
  rw [wp_bind, wp_ensure]
  exact ⟨hQ, fun _ => hE e⟩

/-! ### Calls that return -/

/-- Nothing is said about a program that fails. -/
abbrev anyFault : Fault → World → Prop := fun _ _ => True

theorem returns_check {x : Except CoreError α} {f : α → CoreM β} {Q : β → World → Prop}
    (h : ∀ a, wp (f a) w Q anyFault) : wp (check x >>= f) w Q anyFault := by
  rw [wp_bind, wp_check]
  exact ⟨fun a _ => h a, fun _ _ => trivial⟩

theorem returns_ensure {c : Bool} {e : CoreError} {f : Unit → CoreM β} {Q : β → World → Prop}
    (h : wp (f ()) w Q anyFault) : wp (ensure c e >>= f) w Q anyFault := by
  rw [wp_bind, wp_ensure]
  exact ⟨fun _ => h, fun _ => trivial⟩

theorem returns_onStore {m : StoreM α} {Q : α → World → Prop}
    (h : ∀ a store, Q a (w.setStore store)) : wp (onStore m) w Q anyFault := by
  rw [onStore, wp_zoom]
  unfold wp
  cases m w.store with
  | ok a store => exact h a store
  | error f store => exact trivial

theorem returns_capabilitiesFor {Q : AdapterCapabilities → World → Prop} (h : ∀ c, Q c w) :
    wp (capabilitiesFor source) w Q anyFault := by
  simp only [capabilitiesFor, wp_bind, wp_get, wp_okOr]
  exact ⟨fun c _ => h c, fun _ => trivial⟩

theorem returns_requireEvents {Q : Unit → World → Prop} (h : Q () w) :
    wp (requireEvents source) w Q anyFault := by
  unfold requireEvents
  rw [wp_bind]
  refine returns_capabilitiesFor fun c => ?_
  rw [wp_ensure]
  exact ⟨fun _ => h, fun _ => trivial⟩

theorem returns_resolve {f : String → AgentSession → CoreM β} {Q : β → World → Prop}
    (h : ∀ id s, w.registry.sessions.lookup id = some s → wp (f id s) w Q anyFault) :
    wp (do
      let id ← resolveSessionId source externalSessionId
      let s ← resolvedSession id
      f id s) w Q anyFault := by
  simp only [resolveSessionId, resolvedSession, wp_bind, wp_get, wp_okOr, wp_pure, wp_expect]
  exact ⟨fun s _ => ⟨fun t ht => h s.id t ht, fun _ => trivial⟩, fun _ => trivial⟩

theorem returns_storedSession {Q : AgentSession → World → Prop}
    (h : ∀ s, w.registry.sessions.lookup id = some s → Q s w) :
    wp (storedSession id) w Q anyFault := by
  simp only [storedSession, wp_bind, wp_get, wp_okOr]
  exact ⟨fun s hs => h s hs, fun _ => trivial⟩

end Rules

/-! ## Identifiers and capacity -/

/-- Sessions are stored under their identifier, and not more than fit. -/
structure Keyed (r : SessionRegistry) : Prop where
  id : ∀ {id s}, r.sessions.lookup id = some s → s.id = id
  bounded : r.len ≤ maxSessions

namespace Keyed

variable {r r' : SessionRegistry}

theorem of_eq (h : Keyed r) (hs : r'.sessions = r.sessions) : Keyed r' := by
  refine ⟨fun {id s} hlookup => h.id (hs ▸ hlookup), ?_⟩
  rw [SessionRegistry.len, hs]
  exact h.bounded

theorem insert {s : AgentSession} (h : Keyed r) (hr : r'.sessions = r.sessions.insert s.id s)
    (hlen : Dict.size (r.sessions.insert s.id s) ≤ maxSessions) : Keyed r' := by
  refine ⟨fun {id t} ht => ?_, ?_⟩
  · rw [hr, Dict.lookup_insert_ite] at ht
    split at ht
    · rename_i hid
      rw [← Option.some.inj ht, hid]
    · exact h.id ht
  · rw [SessionRegistry.len, hr]
    exact hlen

/-- Every change keeps this. -/
theorem change {fresh quiet : Prop} {w w' : World} (h : Keyed w.registry)
    (hc : Change fresh quiet w w') : Keyed w'.registry := by
  cases hc with
  | @assign id s t hs ht =>
    refine ⟨fun {i u} hu => ?_, ?_⟩
    · have hu' : (w.registry.sessions.adjust id fun _ => t).lookup i = some u := hu
      rw [Dict.lookup_adjust] at hu'
      split at hu'
      · rename_i hi
        rw [hs, Option.map_some, Option.some.injEq] at hu'
        rw [← hu', ht.id, h.id hs, hi]
      · exact h.id hu'
    · show (w.registry.sessions.adjust id fun _ => t).size ≤ maxSessions
      rw [Dict.adjust, Dict.size_mapEntries]
      exact h.bounded
  | @remove id s hs hrow hev =>
    refine ⟨fun {i u} hu => ?_, (Dict.size_erase_le id _).trans h.bounded⟩
    have hu' : (w.registry.sessions.erase id).lookup i = some u := hu
    rw [Dict.lookup_erase_ite] at hu'
    split at hu'
    · cases hu'
    · exact h.id hu'
  | @insert s hk hlen hfresh =>
    refine h.insert rfl ?_
    have hsize := Dict.size_insert_le s.id s w.registry.sessions
    have hroom : w.registry.sessions.size < maxSessions := hlen
    omega
  | @reinsert s t hs ht hk =>
    refine h.insert rfl ?_
    rw [Dict.size_insert_of_lookup (Option.isSome_iff_exists.2 ⟨s, hs⟩)]
    exact h.bounded
  | clearMetrics =>
    refine ⟨fun {i u} hu => ?_, ?_⟩
    · have hu' : (w.registry.sessions.mapValues
          fun s => { s with latestMetric := none }).lookup i = some u := hu
      rw [Dict.lookup_mapValues] at hu'
      obtain ⟨s, hs, rfl⟩ := Option.map_eq_some_iff.1 hu'
      have hid := h.id hs
      exact hid
    · show (w.registry.sessions.mapValues _).size ≤ maxSessions
      rw [Dict.mapValues, Dict.size_mapEntries]
      exact h.bounded
  | store => exact h
  | pushEvent => exact h.of_eq rfl
  | storeEvent => exact h
  | removeRows => exact h
  | clearEvents => exact h.of_eq rfl
  | other hr hdb => exact h.of_eq hr.sessions

theorem evolves {fresh quiet : Prop} {w w' : World} (h : Keyed w.registry)
    (he : Evolves fresh quiet w w') : Keyed w'.registry := by
  induction he with
  | refl => exact h
  | tail _ hc ih => exact ih.change hc

end Keyed

theorem keyed_restartedCore (cfg : CoreConfig) (settings : PublicSettings) (db : Database) :
    Keyed (restartedCore cfg settings db).registry := by
  set rows := SessionRegistry.restoredSessions
    ((Repository.selectedSessions db).map (Repository.reload cfg)) with hrows
  have hput : Keyed (rows.foldl SessionRegistry.putSession SessionRegistry.new) := by
    refine ⟨SessionRegistry.keyed_putAll fun h => by simp [SessionRegistry.new] at h, ?_⟩
    have hsize := SessionRegistry.size_putAll rows SessionRegistry.new
    have htake : rows.length ≤ maxSessions := List.length_take_le _ _
    have hzero : SessionRegistry.new.len = 0 := rfl
    omega
  exact hput.of_eq (SessionRegistry.sessions_pushAll _ _)

end LlmNotch
