import LlmNotch.Registry
import LlmNotch.Alerts
import LlmNotch.Table

/-!
# The repository

The SQLite store behind the core. The tables are lists of rows and every SQL statement is a
function of the database that fails if a constraint of the schema does not hold afterwards;
a failed statement changes nothing. A statement also fails if the file system does, which
the list of faults of a `Store` decides : one entry per statement to come.

The columns written as JSON text are kept as the values they encode. What reading a stored
metric text back gives is a parameter (`CoreConfig.reloadMetric`), because numbers may be
printed and parsed with a loss.
-/

namespace LlmNotch

/-- A row of `metric_buckets`. -/
structure MetricBucket where
  scope : String
  sessionId : String
  bucketStartMs : ℤ
  cpuHostPercent : F64
  cpuCorePercent : F64
  rssBytes : ℤ
  runtimeMs : ℤ
  processCount : ℕ
  readBytesPerSec : ℤ
  writeBytesPerSec : ℤ
  deriving DecidableEq

/-- The primary key. -/
def MetricBucket.key (row : MetricBucket) : String × String × ℤ :=
  (row.scope, row.sessionId, row.bucketStartMs)

/-- A row of `integration_health`. -/
structure IntegrationHealth where
  capabilities : AdapterCapabilities
  healthy : Bool
  message : Option String
  updatedAtMs : ℤ
  deriving DecidableEq

/-- The tables the core uses. -/
structure Database where
  sessions : List AgentSession := []
  events : List SessionEvent := []
  settings : Option PublicSettings := none
  integrations : List IntegrationHealth := []
  metricBuckets : List MetricBucket := []
  idempotencyKeys : List (String × ℤ) := []

/-- A database and the fate of the statements to come. -/
structure Store where
  db : Database
  faults : List Bool := []

/-- Programs over the store. -/
abbrev StoreM := EStateM Fault Store

structure PurgeReport where
  eventsDeleted : ℕ
  metricBucketsDeleted : ℕ
  bytesAfter : ℕ
  deriving DecidableEq

/-- What SQLite reports on a duplicate `(session_id, sequence)`. -/
def duplicateSequence : String :=
  "UNIQUE constraint failed: session_events.session_id, session_events.sequence"

/-- What SQLite reports if the file system fails. -/
def diskError : String := "disk I/O error"

theorem diskError_ne : diskError ≠ duplicateSequence := by
  decide

namespace Repository

/-! ## Statements -/

/-- Execute one statement. -/
def statement {α : Type} (sql : Database → Except String (α × Database)) : StoreM α := fun s =>
  let rest := { s with faults := s.faults.tail }
  if s.faults.headD false then .error (.other diskError) rest
  else match sql s.db with
    | .ok (a, db) => .ok a { rest with db := db }
    | .error detail => .error (.other detail) rest

/-- A statement that cannot break a constraint. -/
def execute (sql : Database → Database) : StoreM Unit :=
  statement fun db => .ok ((), sql db)

/-- A statement that only reads. -/
def query {α : Type} (sql : Database → α) : StoreM α :=
  statement fun db => .ok (sql db, db)

theorem wp_statement {α : Type} {s : Store} {Q : α → Store → Prop} {E : Fault → Store → Prop}
    {sql : Database → Except String (α × Database)}
    (hQ : ∀ a db, sql s.db = .ok (a, db) → Q a ⟨db, s.faults.tail⟩)
    (hE : ∀ detail, detail = diskError ∨ sql s.db = .error detail →
      E (.other detail) ⟨s.db, s.faults.tail⟩) :
    wp (statement sql) s Q E := by
  unfold wp statement
  by_cases hf : s.faults.headD false = true
  · simpa only [if_pos hf] using hE diskError (Or.inl rfl)
  · simp only [if_neg hf]
    cases hs : sql s.db with
    | ok p => exact hQ p.1 p.2 hs
    | error detail => exact hE detail (Or.inr hs)

/-! ## Sessions -/

/-- Merge a session into its stored row : source, external id and start time stay. -/
def mergeSession (row session : AgentSession) : AgentSession :=
  { session with
    id := row.id
    source := row.source
    externalSessionId := row.externalSessionId
    startedAtMs := row.startedAtMs }

/-- `INSERT INTO sessions .. ON CONFLICT(id) DO UPDATE`. -/
def upsertSessionSql (session : AgentSession) (db : Database) :
    Except String (Unit × Database) :=
  if !hasKey (·.id) session.id db.sessions &&
      hasKey (fun row => (row.source, row.externalSessionId))
        (session.source, session.externalSessionId) db.sessions then
    .error "UNIQUE constraint failed: sessions.source, sessions.external_session_id"
  else .ok ((), { db with sessions := upsertRow (·.id) mergeSession session db.sessions })

variable {session : AgentSession} {db db' : Database} {e : SessionEvent}

theorem upsertSessionSql_ok {u : Unit} (h : upsertSessionSql session db = .ok (u, db')) :
    db' = { db with sessions := upsertRow (·.id) mergeSession session db.sessions } ∧
      (hasKey (·.id) session.id db.sessions = false →
        hasKey (fun row => (row.source, row.externalSessionId))
          (session.source, session.externalSessionId) db.sessions = false) := by
  unfold upsertSessionSql at h
  split at h
  · cases h
  · rename_i hno
    refine ⟨(Prod.mk.inj (Except.ok.inj h)).2.symm, fun hid => ?_⟩
    simpa [hid] using hno

theorem upsertSessionSql_error {detail : String}
    (h : detail = diskError ∨ upsertSessionSql session db = .error detail) :
    detail ≠ duplicateSequence := by
  rcases h with rfl | h
  · exact diskError_ne
  · unfold upsertSessionSql at h
    split at h
    · cases h
      decide
    · cases h

def upsertSession (session : AgentSession) : StoreM Unit :=
  statement (upsertSessionSql session)

/-- Deleting a session deletes its events. -/
def withoutSession (sessionId : String) (db : Database) : Database :=
  { db with
    sessions := db.sessions.filter (·.id ≠ sessionId)
    events := db.events.filter (·.sessionId ≠ sessionId) }

def removeSession (sessionId : String) : StoreM Unit :=
  execute (withoutSession sessionId)

/-- The sessions a restart loads. -/
def selectedSessions (db : Database) : List AgentSession :=
  (db.sessions.insertionSort restoreBefore).take maxSessions

/-- A row as it is read back. -/
def reload (cfg : CoreConfig) (row : AgentSession) : AgentSession :=
  { row with latestMetric := row.latestMetric.bind cfg.reloadMetric }

def loadSessions (cfg : CoreConfig) : StoreM (List AgentSession) :=
  query fun db => (selectedSessions db).map (reload cfg)

/-! ## Events -/

/-- `INSERT INTO session_events`. -/
def insertEventSql (e : SessionEvent) (db : Database) : Except String (Unit × Database) :=
  if hasKey (·.id) e.id db.events then .error "UNIQUE constraint failed: session_events.id"
  else if hasKey (fun row => (row.sessionId, row.sequence)) (e.sessionId, e.sequence)
      db.events then .error duplicateSequence
  else if !hasKey (·.id) e.sessionId db.sessions then .error "FOREIGN KEY constraint failed"
  else .ok ((), { db with events := db.events ++ [e] })

theorem insertEventSql_ok {u : Unit} (h : insertEventSql e db = .ok (u, db')) :
    db' = { db with events := db.events ++ [e] } ∧ ∃ row ∈ db.sessions, row.id = e.sessionId := by
  unfold insertEventSql at h
  split at h
  · cases h
  · split at h
    · cases h
    · split at h
      · cases h
      · rename_i hrow
        exact ⟨(Prod.mk.inj (Except.ok.inj h)).2.symm, hasKey_iff.1 (by simpa using hrow)⟩

/-- An inserted event has an identifier and a sequence of its own. -/
theorem insertEventSql_fresh {u : Unit} (h : insertEventSql e db = .ok (u, db')) :
    e.id ∉ db.events.map (·.id) ∧
      (e.sessionId, e.sequence) ∉ db.events.map fun row => (row.sessionId, row.sequence) := by
  unfold insertEventSql at h
  split at h
  · cases h
  · rename_i hid
    split at h
    · cases h
    · rename_i hsequence
      exact ⟨by simpa [hasKey] using hid, by simpa [hasKey] using hsequence⟩

theorem insertEventSql_duplicate
    (h : duplicateSequence = diskError ∨ insertEventSql e db = .error duplicateSequence) :
    ∃ row ∈ db.events, row.sessionId = e.sessionId ∧ row.sequence = e.sequence := by
  replace h := h.resolve_left diskError_ne.symm
  unfold insertEventSql at h
  split at h
  · exact absurd (Except.error.inj h) (by decide)
  · split at h
    · rename_i hdup
      obtain ⟨row, hrow, hkey⟩ := hasKey_iff.1 hdup
      exact ⟨row, hrow, (Prod.mk.inj hkey).1, (Prod.mk.inj hkey).2⟩
    · split at h
      · exact absurd (Except.error.inj h) (by decide)
      · cases h

/-- The events of a session by sequence. -/
def sessionEvents (db : Database) (sessionId : String) : List SessionEvent :=
  (db.events.filter (·.sessionId = sessionId)).insertionSort fun a b => a.sequence ≤ b.sequence

/-- Delete the events with these identifiers. -/
def deleteEvents (ids : List ℕ) (db : Database) : Database :=
  { db with events := db.events.filter fun e => !ids.contains e.id }

/-- Delete the oldest events of a session beyond the limit. -/
def trimSessionEvents (sessionId : String) : StoreM Unit := do
  let count ← query fun db => (sessionEvents db sessionId).length
  onlyIf (maxEventsPerSession < count) <| execute fun db => deleteEvents
    (((sessionEvents db sessionId).take (count - maxEventsPerSession)).map (·.id)) db

def appendEvent (e : SessionEvent) : StoreM Unit := do
  statement (insertEventSql e)
  trimSessionEvents e.sessionId

/-- The events a restart loads : the last ones of every selected session. -/
def selectedEvents (db : Database) : List SessionEvent :=
  ((selectedSessions db).flatMap fun row =>
    keepLast maxEventsPerSession (sessionEvents db row.id)).insertionSort
      SessionRegistry.eventBefore

def loadEvents : StoreM (List SessionEvent) :=
  query selectedEvents

def purgeSessionEvents : StoreM ℕ :=
  statement fun db => .ok (db.events.length, { db with events := [] })

/-! ## Settings, integrations and idempotency keys -/

def loadSettings : StoreM (Option PublicSettings) :=
  query fun db => db.settings

def saveSettings (settings : PublicSettings) : StoreM Unit :=
  execute fun db => { db with settings := some settings }

def loadIntegrations : StoreM (List AdapterCapabilities) :=
  query fun db => db.integrations.map (·.capabilities)

def upsertIntegration (row : IntegrationHealth) : StoreM Unit :=
  execute fun db => { db with
    integrations := upsertRow (·.capabilities.source) (fun _ new => new) row db.integrations }

/-- `INSERT OR IGNORE`; the result says whether the key was there. -/
def storeIdempotencyKey (key : String) (createdAtMs : ℤ) : StoreM Bool :=
  statement fun db =>
    if hasKey (·.1) key db.idempotencyKeys then .ok (true, db)
    else .ok (false, { db with idempotencyKeys := db.idempotencyKeys ++ [(key, createdAtMs)] })

/-! ## Metrics -/

/-- A NaN is stored as NULL, which the columns do not allow. -/
def recordMetricBucketSql (row : MetricBucket) (db : Database) :
    Except String (Unit × Database) :=
  if row.cpuHostPercent.key.isNone then
    .error "NOT NULL constraint failed: metric_buckets.cpu_host_percent"
  else if row.cpuCorePercent.key.isNone then
    .error "NOT NULL constraint failed: metric_buckets.cpu_core_percent"
  else .ok ((), { db with
    metricBuckets := upsertRow MetricBucket.key (fun _ new => new) row db.metricBuckets })

def recordMetricBucket (scope : String) (sessionId : Option String) (bucketStartMs : ℤ)
    (sample : MetricSample) : StoreM Unit :=
  statement (recordMetricBucketSql {
    scope
    sessionId := sessionId.getD hostMetricSessionKey
    bucketStartMs
    cpuHostPercent := sample.cpuHostPercent
    cpuCorePercent := sample.cpuCorePercent
    rssBytes := wrapI64 sample.rssBytes
    runtimeMs := wrapI64 sample.runtimeMs
    processCount := sample.processCount
    readBytesPerSec := wrapI64 sample.readBytesPerSec
    writeBytesPerSec := wrapI64 sample.writeBytesPerSec })

/-- `UPDATE sessions SET latest_metric_json = NULL`. -/
def forgetLatestMetrics (db : Database) : Database :=
  { db with sessions := db.sessions.map fun row => { row with latestMetric := none } }

/-- One transaction. -/
def purgeMetricHistory : StoreM ℕ :=
  statement fun db =>
    .ok (db.metricBuckets.length, forgetLatestMetrics { db with metricBuckets := [] })

/-! ## Retention -/

/-- Delete the rows of a table that do not satisfy `keep` and count them. -/
def deleteWhere {ρ : Type} (keep : ρ → Bool) (rows : List ρ) : ℕ × List ρ :=
  (rows.length - (rows.filter keep).length, rows.filter keep)

/-- The 500 events that occurred first. -/
def oldestEvents (db : Database) : List ℕ :=
  ((db.events.insertionSort fun a b => a.occurredAtMs ≤ b.occurredAtMs).take 500).map (·.id)

/-- Delete the oldest events while the file is too large. `sizes` are the sizes the file
system reports one after another; after the last one it reports 0. -/
def pruneToTarget (eventsDeleted : ℕ) : List ℕ → StoreM (ℕ × ℕ)
  | [] => pure (eventsDeleted, 0)
  | bytesAfter :: sizes =>
    if pruneTargetBytes < bytesAfter then do
      let deleted ← statement fun db =>
        let (deleted, events) :=
          deleteWhere (fun e => !(oldestEvents db).contains e.id) db.events
        .ok (deleted, { db with events })
      if deleted = 0 then pure (eventsDeleted, bytesAfter)
      else pruneToTarget (eventsDeleted + deleted) sizes
    else pure (eventsDeleted, bytesAfter)

def pruneWithMetricRetention (nowMs metricRetentionMs : ℤ) (sizes : List ℕ) :
    StoreM PurgeReport := do
  let eventsDeleted ← statement fun db =>
    let (deleted, events) :=
      deleteWhere (fun e => decide (nowMs - eventRetentionMs ≤ e.occurredAtMs)) db.events
    .ok (deleted, { db with events })
  let metricBucketsDeleted ← statement fun db =>
    let (deleted, metricBuckets) :=
      deleteWhere (fun b => decide (nowMs - max metricRetentionMs 0 ≤ b.bucketStartMs))
        db.metricBuckets
    .ok (deleted, { db with metricBuckets })
  onlyIf (0 < metricBucketsDeleted) (execute forgetLatestMetrics)
  let (eventsDeleted, bytesAfter) ← pruneToTarget eventsDeleted sizes
  -- the checkpoint of the write-ahead log
  execute fun db => db
  pure ⟨eventsDeleted, metricBucketsDeleted, bytesAfter⟩

/-! ## Migration 5 -/

/-- `lower(trim(text))` : spaces and ASCII letters. -/
def lowerTrim (text : String) : String :=
  let trimmed := ((text.toList.dropWhile (· = ' ')).reverse.dropWhile (· = ' ')).reverse
  String.ofList (trimmed.map Char.toLower)

/-- Give the generic rows with one of these labels their source, unless a row of that source
has the same external id. -/
def retype (target : AgentSource) (labels : List String) (rows : List AgentSession) :
    List AgentSession :=
  rows.map fun row =>
    if row.source = .generic ∧ lowerTrim row.label ∈ labels ∧
        ¬ ∃ typed ∈ rows, typed.source = target ∧
          typed.externalSessionId = row.externalSessionId ∧ typed.id ≠ row.id then
      { row with source := target }
    else row

/-- The rows of `sessions` after migration 5. The identifiers stay. -/
def migration005 (rows : List AgentSession) : List AgentSession :=
  let rows := retype .qwen ["qwen session"] rows
  let rows := retype .antigravityCli
    ["antigravitycli session", "antigravity-cli session", "antigravity session"] rows
  retype .copilotCli ["copilotcli session", "copilot-cli session", "copilot session"] rows

end Repository

end LlmNotch
