import Mathlib.Data.Finset.Max
import Mathlib.Data.List.Dedup
import LlmNotch.RustText
import LlmNotch.Transaction

/-!
# Migrations of the database

The schema has five versions. The first migration creates what is missing and is committed
statement by statement; each of the others is one transaction that ends by setting the version.
`applyMigrations` reads the version and gives the commands that are left.

A text primary key may be null, and nulls are distinct. The buckets of version 1 use this for the
host; version 2 gives the host a name and keeps the newest row of each bucket. Version 5 gives old
sessions their source, unless a session of that source has the same external identifier; a session
with a null identifier is overlooked there.

`migrations_resume` : from every database of version 1 in which no such session is in the way, and
wherever the process stops, no constraint is violated, and every completed run ends in the same
database of version 5.
-/

namespace LlmNotch

namespace Migrations

open Transaction

/-! ## The tables -/

structure SessionRow where
  id : Option String
  source : String
  externalSessionId : String
  label : String
  workspaceLabel : Option String
  status : String
  attention : String
  startedAtMs : ℤ
  lastEventAtMs : ℤ
  endedAtMs : Option ℤ
  processRootPid : Option ℤ
  processRootStartedAtMs : Option ℤ
  latestMetricJson : Option String
  verifiedTerminalJson : Option String
  deriving DecidableEq

structure EventRow where
  id : Option String
  sessionId : String
  sequence : ℤ
  occurredAtMs : ℤ
  kind : String
  level : String
  summary : String
  toolName : Option String
  deriving DecidableEq

/-- The measurements of a bucket; the percentages as the bits of a REAL. -/
structure BucketValues where
  cpuHostPercent : UInt64
  cpuCorePercent : UInt64
  rssBytes : ℤ
  runtimeMs : ℤ
  processCount : ℤ
  readBytesPerSec : ℤ
  writeBytesPerSec : ℤ
  deriving DecidableEq

structure BucketRow where
  scope : String
  sessionId : Option String
  bucketStartMs : ℤ
  values : BucketValues
  deriving DecidableEq

/-- The tables and indices of the schema, and the column that is added to the sessions. -/
inductive Object where
  | schemaVersion
  | sessions
  | sessionEvents
  | sessionEventsBySequence
  | sessionEventsByTime
  | settings
  | integrationHealth
  | metricBuckets
  | metricBucketsByStart
  | idempotencyKeys
  | metaTable
  | metricBucketsV2
  | remoteHosts
  | verifiedTerminalJson
  deriving DecidableEq

/-- What exists, and the rows of the tables that migrations read; the buckets with their rowids. -/
structure Database where
  objects : Finset Object
  schemaVersion : List ℤ
  sessions : List SessionRow
  sessionEvents : List EventRow
  metricBuckets : List (ℤ × BucketRow)
  metricBucketsV2 : List (ℤ × BucketRow)
  deriving DecidableEq

inductive SqlError where
  | alreadyExists (object : Object)
  | noSuchTable (table : Object)
  | uniqueFailed (columns : String)
  | notNullFailed (column : String)
  deriving DecidableEq

/-! ## Statements -/

inductive Statement where
  /-- CREATE TABLE or INDEX IF NOT EXISTS -/
  | createMissing (object : Object)
  /-- CREATE TABLE or INDEX, or ALTER TABLE ADD COLUMN -/
  | create (object : Object)
  | insertVersion (version : ℤ)
  | updateVersion (version : ℤ)
  | copyBuckets
  | dropBuckets
  | renameBuckets
  | updateSource (source : String) (labels : List String)
  | pragma (setting : String)
  deriving DecidableEq

/-- The bucket of a row, with a name for the host. -/
def bucketKey (row : BucketRow) : String × String × ℤ :=
  (row.scope, row.sessionId.getD "__host__", row.bucketStartMs)

/-- The greatest rowid of each group of the subquery. -/
def newestRowids (rows : List (ℤ × BucketRow)) : List (Option ℤ) :=
  (rows.map fun row => bucketKey row.2).dedup.map fun key =>
    ((rows.filter fun row => bucketKey row.2 = key).map Prod.fst).max?

/-- The row as it is selected. -/
def canonical (row : BucketRow) : BucketRow :=
  { row with sessionId := some (row.sessionId.getD "__host__") }

/-- The rows of the SELECT. -/
def newestBuckets (rows : List (ℤ × BucketRow)) : List BucketRow :=
  rows.flatMap fun old => (newestRowids rows).filterMap fun newest =>
    if newest = some old.1 then some (canonical old.2) else none

/-- Inserted rows get the next rowids. -/
def insertBuckets (table : List (ℤ × BucketRow)) (rows : List BucketRow) : List (ℤ × BucketRow) :=
  table ++ rows.zipIdx.map fun (row, i) => ((table.map Prod.fst).max?.getD 0 + i + 1, row)

/-- The columns of the primary key, unless one is null. -/
def primaryKey (row : BucketRow) : Option (String × String × ℤ) :=
  row.sessionId.map fun sessionId => (row.scope, sessionId, row.bucketStartMs)

/-- `lower(trim(label))` : ASCII letters, and blanks at both ends. -/
def lowerTrim (label : String) : String :=
  String.ofList ((((label.toList.dropWhile (· = ' ')).reverse.dropWhile (· = ' ')).reverse).map
    RustText.toAsciiLowercase)

/-- A comparison is true only between values. -/
def differs (a b : Option String) : Bool :=
  match a, b with
  | some a, some b => a ≠ b
  | _, _ => false

/-- The WHERE clause of an update of the source. -/
def matchesSource (source : String) (labels : List String) (rows : List SessionRow)
    (row : SessionRow) : Bool :=
  row.source = "Generic" && lowerTrim row.label ∈ labels &&
    !rows.any fun typed => typed.source = source &&
      typed.externalSessionId = row.externalSessionId && differs typed.id row.id

/-- The rows after an update of the source. -/
def withSource (source : String) (labels : List String) (rows : List SessionRow) :
    List SessionRow :=
  rows.map fun row =>
    if matchesSource source labels rows row then { row with source := source } else row

def sessionKey (row : SessionRow) : String × String :=
  (row.source, row.externalSessionId)

def apply (s : Statement) (d : Database) : Except SqlError Database :=
  match s with
  | .createMissing object => .ok { d with objects := insert object d.objects }
  | .create object =>
    if object ∈ d.objects then .error (.alreadyExists object)
    else .ok { d with objects := insert object d.objects }
  | .insertVersion version =>
    if .schemaVersion ∉ d.objects then .error (.noSuchTable .schemaVersion)
    else .ok { d with schemaVersion := d.schemaVersion ++ [version] }
  | .updateVersion version =>
    if .schemaVersion ∉ d.objects then .error (.noSuchTable .schemaVersion)
    else .ok { d with schemaVersion := d.schemaVersion.map fun _ => version }
  | .copyBuckets =>
    if .metricBuckets ∉ d.objects then .error (.noSuchTable .metricBuckets)
    else if .metricBucketsV2 ∉ d.objects then .error (.noSuchTable .metricBucketsV2)
    else if !(newestBuckets d.metricBuckets).all fun row => row.sessionId.isSome then
      .error (.notNullFailed "metric_buckets_v2.session_id")
    else if ((d.metricBucketsV2.map Prod.snd ++ newestBuckets d.metricBuckets).filterMap
        primaryKey).Nodup then
      .ok { d with
        metricBucketsV2 := insertBuckets d.metricBucketsV2 (newestBuckets d.metricBuckets) }
    else .error (.uniqueFailed "metric_buckets_v2.scope, session_id, bucket_start_ms")
  | .dropBuckets =>
    -- the index of the table goes with it
    if .metricBuckets ∉ d.objects then .error (.noSuchTable .metricBuckets)
    else .ok { d with
      objects := (d.objects.erase .metricBuckets).erase .metricBucketsByStart
      metricBuckets := [] }
  | .renameBuckets =>
    if .metricBucketsV2 ∉ d.objects then .error (.noSuchTable .metricBucketsV2)
    else if .metricBuckets ∈ d.objects then .error (.alreadyExists .metricBuckets)
    else .ok { d with
      objects := insert .metricBuckets (d.objects.erase .metricBucketsV2)
      metricBuckets := d.metricBucketsV2
      metricBucketsV2 := [] }
  | .updateSource source labels =>
    if .sessions ∉ d.objects then .error (.noSuchTable .sessions)
    else if ((withSource source labels d.sessions).map sessionKey).Nodup then
      .ok { d with sessions := withSource source labels d.sessions }
    else .error (.uniqueFailed "sessions.source, sessions.external_session_id")
  | .pragma _ => .ok d

/-! ## The migrations -/

/-- What the first migration creates. -/
def firstObjects : List Object :=
  [.schemaVersion, .sessions, .sessionEvents, .sessionEventsBySequence, .sessionEventsByTime,
    .settings, .integrationHealth, .metricBuckets, .metricBucketsByStart, .idempotencyKeys,
    .metaTable]

def migration001 : List Statement :=
  firstObjects.map .createMissing

def migration002 : List Statement :=
  [.create .metricBucketsV2, .copyBuckets, .dropBuckets, .renameBuckets,
    .create .metricBucketsByStart, .updateVersion 2]

def migration003 : List Statement :=
  [.create .remoteHosts, .updateVersion 3]

def migration004 : List Statement :=
  [.create .verifiedTerminalJson, .updateVersion 4]

/-- The sources that sessions are given, with the labels they are known by. -/
def typedSources : List (String × List String) :=
  [("Qwen", ["qwen session"]),
    ("AntigravityCli", ["antigravitycli session", "antigravity-cli session",
      "antigravity session"]),
    ("CopilotCli", ["copilotcli session", "copilot-cli session", "copilot session"])]

def migration005 : List Statement :=
  (typedSources.map fun (source, labels) => .updateSource source labels) ++ [.updateVersion 5]

/-- `SELECT version FROM schema_version LIMIT 1`. -/
def versionOf (d : Database) : Option ℤ :=
  if .schemaVersion ∈ d.objects then d.schemaVersion.head? else none

/-- The transaction of a migration, if the version is lower. -/
def below (version target : ℤ) (migration : List Statement) : List (Command Statement) :=
  if version < target then block migration else []

def applyMigrations (d : Database) : List (Command Statement) :=
  let version := (versionOf d).getD 1
  (if versionOf d = none then migration001.map .plain ++ [.plain (.insertVersion 1)] else []) ++
    (below version 2 migration002 ++ (below version 3 migration003 ++
      (below version 4 migration004 ++ (below version 5 migration005 ++
        [.plain (.pragma "journal_mode=WAL"), .plain (.pragma "foreign_keys=ON")]))))

/-! ## Constraints -/

/-- The keys of the tables. Null identifiers are distinct. -/
structure Constraints (d : Database) : Prop where
  sessionIds : (d.sessions.filterMap SessionRow.id).Nodup
  sessionKeys : (d.sessions.map sessionKey).Nodup
  eventIds : (d.sessionEvents.filterMap EventRow.id).Nodup
  eventKeys : (d.sessionEvents.map fun e => (e.sessionId, e.sequence)).Nodup
  eventSessions : ∀ e ∈ d.sessionEvents, ∃ s ∈ d.sessions, s.id = some e.sessionId
  rowids : (d.metricBuckets.map Prod.fst).Nodup
  bucketKeys : (d.metricBuckets.filterMap fun row => primaryKey row.2).Nodup

/-- A database of version 1, or one whose version was not yet written. -/
structure IsVersion1 (d : Database) : Prop where
  objects : d.objects = firstObjects.toFinset
  version : ∀ version ∈ d.schemaVersion, version = 1
  v2 : d.metricBucketsV2 = []
  constraints : Constraints d

/-- An old session with a label of the source, and a session of the source with the same external
identifier, both have an identifier. -/
def Clear (source : String) (labels : List String) (rows : List SessionRow) : Prop :=
  ∀ old ∈ rows, ∀ typed ∈ rows, old.source = "Generic" → lowerTrim old.label ∈ labels →
    typed.source = source → typed.externalSessionId = old.externalSessionId →
    old.id.isSome ∧ typed.id.isSome

/-- The row has the greatest rowid of its bucket. -/
def Newest (rows : List (ℤ × BucketRow)) (row : ℤ × BucketRow) : Prop :=
  ∀ other ∈ rows, bucketKey other.2 = bucketKey row.2 → other.1 ≤ row.1

/-- The columns of a session other than its source. -/
def exceptSource (row : SessionRow) : SessionRow :=
  { row with source := "" }

/-- What a migrated database is. -/
structure Migrated (d migrated : Database) : Prop where
  version : versionOf migrated = some 5
  constraints : Constraints migrated
  sessions : migrated.sessions.map exceptSource = d.sessions.map exceptSource
  events : migrated.sessionEvents = d.sessionEvents
  bucketSessions : ∀ row ∈ migrated.metricBuckets, row.2.sessionId.isSome
  bucketOnce : (migrated.metricBuckets.map fun row => bucketKey row.2).Nodup
  bucketRows : ∀ row, row ∈ migrated.metricBuckets.map Prod.snd ↔
    ∃ old ∈ d.metricBuckets, Newest d.metricBuckets old ∧ row = canonical old.2
  bucketKept : ∀ old ∈ d.metricBuckets, ∃ row ∈ migrated.metricBuckets,
    bucketKey row.2 = bucketKey old.2

/-! ## Sessions -/

section Sessions

variable {source : String} {labels : List String} {rows : List SessionRow}

theorem mem_withSource {row : SessionRow} (h : row ∈ withSource source labels rows)
    (hsource : row.source ≠ source) : row ∈ rows := by
  obtain ⟨old, hold, rfl⟩ := List.mem_map.1 h
  split_ifs at hsource ⊢ with hmatch
  · exact absurd rfl hsource
  · exact hold

theorem exceptSource_withSource (source : String) (labels : List String)
    (rows : List SessionRow) :
    (withSource source labels rows).map exceptSource = rows.map exceptSource := by
  rw [withSource, List.map_map]
  refine List.map_congr_left fun row _ => ?_
  simp only [Function.comp_apply]
  split_ifs <;> rfl

/-- Updates of one source leave the way of another one clear. -/
theorem Clear.withSource {other : String} {otherLabels : List String}
    (h : Clear source labels rows) (hne : source ≠ other) (hgeneric : other ≠ "Generic") :
    Clear source labels (withSource other otherLabels rows) := by
  intro old hold typed htyped hold_source hlabel htyped_source
  refine h old (mem_withSource hold ?_) typed (mem_withSource htyped ?_) hold_source hlabel
    htyped_source
  · rw [hold_source]
    exact hgeneric.symm
  · rw [htyped_source]
    exact hne

/-- Two rows with different identifiers. -/
theorem differs_of_ne {a b : Option String} (ha : a.isSome) (hb : b.isSome) (hne : a ≠ b) :
    differs a b = true := by
  obtain ⟨x, rfl⟩ := Option.isSome_iff_exists.1 ha
  obtain ⟨y, rfl⟩ := Option.isSome_iff_exists.1 hb
  exact decide_eq_true fun heq => hne (congrArg some heq)

/-- A row that is updated has no typed row in its way. -/
theorem not_typed_of_matches {old typed : SessionRow} (hclear : Clear source labels rows)
    (hmatch : matchesSource source labels rows old = true) (hold : old ∈ rows)
    (htyped : typed ∈ rows) (hids : ∀ x, old.id = some x → typed.id ≠ some x)
    (hsource : typed.source = source) :
    typed.externalSessionId ≠ old.externalSessionId := by
  intro hexternal
  simp only [matchesSource, Bool.and_eq_true, decide_eq_true_eq, Bool.not_eq_true',
    List.any_eq_false] at hmatch
  obtain ⟨⟨hgeneric, hlabel⟩, hnone⟩ := hmatch
  obtain ⟨hold_id, htyped_id⟩ := hclear old hold typed htyped hgeneric hlabel hsource hexternal
  have hne : typed.id ≠ old.id := by
    obtain ⟨x, hx⟩ := Option.isSome_iff_exists.1 hold_id
    rw [hx]
    exact hids x hx
  refine hnone typed htyped ?_
  simp [hsource, hexternal, differs_of_ne htyped_id hold_id hne]

/-- The rows of an update keep the uniqueness of source and external identifier. -/
theorem keys_withSource (hkeys : (rows.map sessionKey).Nodup)
    (hids : (rows.filterMap SessionRow.id).Nodup) (hclear : Clear source labels rows) :
    ((withSource source labels rows).map sessionKey).Nodup := by
  have hkeys' : rows.Pairwise fun a b => sessionKey a ≠ sessionKey b := List.pairwise_map.1 hkeys
  have hids' : rows.Pairwise fun a b => ∀ x, a.id = some x → b.id ≠ some x := by
    refine (List.pairwise_filterMap.1 hids).imp fun h x ha hb => ?_
    exact h x ha x hb rfl
  have hgeneric : ∀ {row}, matchesSource source labels rows row = true →
      row.source = "Generic" := by
    intro row hmatch
    simp only [matchesSource, Bool.and_eq_true, decide_eq_true_eq] at hmatch
    exact hmatch.1.1
  rw [withSource, List.map_map]
  refine List.pairwise_map.2 ((hkeys'.and hids').imp_of_mem ?_)
  rintro a b ha hb ⟨hkey, hid⟩ heq
  simp only [Function.comp_apply] at heq
  split_ifs at heq with hmatch_a hmatch_b hmatch_b
  · -- both were Generic, so they had different external identifiers
    have hexternal : a.externalSessionId = b.externalSessionId := (Prod.mk.inj heq).2
    exact hkey (Prod.ext ((hgeneric hmatch_a).trans (hgeneric hmatch_b).symm) hexternal)
  · obtain ⟨hsource, hexternal⟩ := Prod.mk.inj heq
    exact not_typed_of_matches hclear hmatch_a ha hb hid hsource.symm hexternal.symm
  · obtain ⟨hsource, hexternal⟩ := Prod.mk.inj heq
    exact not_typed_of_matches hclear hmatch_b hb ha (fun x hx hax => hid x hax hx) hsource hexternal
  · exact hkey heq

theorem ids_of_exceptSource {others : List SessionRow}
    (h : rows.map exceptSource = others.map exceptSource) :
    rows.map SessionRow.id = others.map SessionRow.id := by
  have hids := congrArg (List.map SessionRow.id) h
  rwa [List.map_map, List.map_map] at hids

theorem filterMap_ids {others : List SessionRow}
    (h : rows.map exceptSource = others.map exceptSource) :
    rows.filterMap SessionRow.id = others.filterMap SessionRow.id := by
  have hids := congrArg (List.filterMap fun id => id) (ids_of_exceptSource h)
  rwa [List.filterMap_map, List.filterMap_map] at hids

/-- The updates of all sources. -/
def withSources (typed : List (String × List String)) (rows : List SessionRow) :
    List SessionRow :=
  typed.foldl (fun rows typed => withSource typed.1 typed.2 rows) rows

theorem exceptSource_withSources (typed : List (String × List String)) (rows : List SessionRow) :
    (withSources typed rows).map exceptSource = rows.map exceptSource := by
  induction typed generalizing rows with
  | nil => rfl
  | cons first typed ih =>
    exact (ih (withSource first.1 first.2 rows)).trans
      (exceptSource_withSource first.1 first.2 rows)

end Sessions

/-! ## Buckets -/

section Buckets

variable {rows : List (ℤ × BucketRow)}

theorem bucketKey_canonical (row : BucketRow) : bucketKey (canonical row) = bucketKey row := rfl

/-- The greatest rowid of a group. -/
theorem maxRowid_eq_some_iff (hrowids : (rows.map Prod.fst).Nodup) {old : ℤ × BucketRow}
    (hold : old ∈ rows) (key : String × String × ℤ) :
    ((rows.filter fun row => bucketKey row.2 = key).map Prod.fst).max? = some old.1 ↔
      key = bucketKey old.2 ∧ Newest rows old := by
  have hsame : ∀ row ∈ rows, row.1 = old.1 → row = old := fun row hrow heq =>
    List.inj_on_of_nodup_map hrowids hrow hold heq
  rw [List.max?_eq_some_iff]
  constructor
  · rintro ⟨hmem, hmax⟩
    obtain ⟨row, hrow, hfst⟩ := List.mem_map.1 hmem
    obtain ⟨hrow, hkey⟩ := List.mem_filter.1 hrow
    obtain rfl := hsame row hrow hfst
    obtain rfl : bucketKey row.2 = key := of_decide_eq_true hkey
    refine ⟨rfl, fun other hother heq => hmax _ (List.mem_map_of_mem ?_)⟩
    exact List.mem_filter.2 ⟨hother, decide_eq_true heq⟩
  · rintro ⟨rfl, hnewest⟩
    refine ⟨List.mem_map_of_mem (List.mem_filter.2 ⟨hold, decide_eq_true rfl⟩), ?_⟩
    intro rowid hrowid
    obtain ⟨row, hrow, rfl⟩ := List.mem_map.1 hrowid
    obtain ⟨hrow, hkey⟩ := List.mem_filter.1 hrow
    exact hnewest row hrow (of_decide_eq_true hkey)

theorem filterMap_eq_of_nodup {α β : Type} [DecidableEq α] {l : List α} {a : α} (c : β)
    (hnodup : l.Nodup) (ha : a ∈ l) :
    (l.filterMap fun k => if k = a then some c else none) = [c] := by
  induction l with
  | nil => cases ha
  | cons k l ih =>
    obtain ⟨hk, hl⟩ := List.nodup_cons.1 hnodup
    by_cases hka : k = a
    · subst hka
      have hrest : (l.filterMap fun j => if j = k then some c else none) = [] := by
        refine List.filterMap_eq_nil_iff.2 fun j hj => if_neg ?_
        rintro rfl
        exact hk hj
      simp [hrest]
    · have hskip : (if k = a then some c else none) = none := if_neg hka
      rw [List.filterMap_cons, hskip]
      exact ih hl ((List.mem_cons.1 ha).resolve_left fun heq => hka heq.symm)

theorem flatMap_if {α β : Type} (p : α → Bool) (f : α → β) (l : List α) :
    (l.flatMap fun a => if p a then [f a] else []) = (l.filter p).map f := by
  induction l with
  | nil => rfl
  | cons a l ih =>
    rw [List.flatMap_cons, ih, List.filter_cons]
    split_ifs <;> rfl

instance (rows : List (ℤ × BucketRow)) (row : ℤ × BucketRow) : Decidable (Newest rows row) :=
  inferInstanceAs (Decidable (∀ other ∈ rows, _ → _))

/-- The SELECT gives the newest row of each bucket, once. -/
theorem newestBuckets_eq (hrowids : (rows.map Prod.fst).Nodup) :
    newestBuckets rows =
      (rows.filter fun old => decide (Newest rows old)).map fun old => canonical old.2 := by
  rw [← flatMap_if, newestBuckets]
  refine List.flatMap_congr fun old hold => ?_
  rw [newestRowids, List.filterMap_map]
  have hkey : bucketKey old.2 ∈ (rows.map fun row => bucketKey row.2).dedup :=
    List.mem_dedup.2 (List.mem_map_of_mem hold)
  by_cases hnewest : Newest rows old
  · rw [if_pos (decide_eq_true hnewest),
      ← filterMap_eq_of_nodup (canonical old.2) (List.nodup_dedup _) hkey]
    refine List.filterMap_congr fun key _ => ?_
    simp only [Function.comp_apply, maxRowid_eq_some_iff hrowids hold, hnewest, and_true]
  · rw [if_neg (by simpa using hnewest)]
    refine List.filterMap_eq_nil_iff.2 fun key _ => if_neg ?_
    rw [maxRowid_eq_some_iff hrowids hold]
    exact fun h => hnewest h.2

theorem newest_keys_nodup (hrowids : (rows.map Prod.fst).Nodup) :
    ((newestBuckets rows).map bucketKey).Nodup := by
  rw [newestBuckets_eq hrowids, List.map_map]
  have hpairwise : rows.Pairwise fun a b => a.1 ≠ b.1 := List.pairwise_map.1 hrowids
  refine List.pairwise_map.2 ((hpairwise.filter _).imp_of_mem ?_)
  intro a b ha hb hne heq
  obtain ⟨ha, hnewest_a⟩ := List.mem_filter.1 ha
  obtain ⟨hb, hnewest_b⟩ := List.mem_filter.1 hb
  have hsame : bucketKey a.2 = bucketKey b.2 := heq
  exact hne (le_antisymm (of_decide_eq_true hnewest_b a ha hsame)
    (of_decide_eq_true hnewest_a b hb hsame.symm))

theorem primaryKeys_newest (hrowids : (rows.map Prod.fst).Nodup) :
    (newestBuckets rows).filterMap primaryKey = (newestBuckets rows).map bucketKey := by
  rw [newestBuckets_eq hrowids, List.filterMap_map, List.map_map]
  exact congrFun List.filterMap_eq_map _

/-- Each bucket has a newest row. -/
theorem newest_exists {old : ℤ × BucketRow} (h : old ∈ rows) :
    ∃ row ∈ rows, bucketKey row.2 = bucketKey old.2 ∧ Newest rows row := by
  have hmem : ∀ row, row ∈ (rows.filter fun row => bucketKey row.2 = bucketKey old.2).toFinset ↔
      row ∈ rows ∧ bucketKey row.2 = bucketKey old.2 := by
    simp
  obtain ⟨row, hrow, hmax⟩ := Finset.exists_max_image _ Prod.fst ⟨old, (hmem old).2 ⟨h, rfl⟩⟩
  obtain ⟨hrow, hkey⟩ := (hmem row).1 hrow
  refine ⟨row, hrow, hkey, fun other hother hsame => ?_⟩
  exact hmax other ((hmem other).2 ⟨hother, hsame.trans hkey⟩)

theorem snd_insertBuckets (rows : List BucketRow) : (insertBuckets [] rows).map Prod.snd = rows := by
  rw [insertBuckets, List.nil_append, List.map_map]
  exact List.zipIdx_map_fst 0 rows

theorem rowids_insertBuckets (rows : List BucketRow) :
    ((insertBuckets [] rows).map Prod.fst).Nodup := by
  rw [insertBuckets, List.nil_append, List.map_map]
  have hindex : rows.zipIdx.Pairwise fun a b => a.2 < b.2 := by
    refine List.pairwise_map.1 ?_
    rw [List.zipIdx_map_snd]
    exact List.pairwise_lt_range'
  refine List.pairwise_map.2 (hindex.imp fun {a b} hless heq => ?_)
  simp only [Function.comp_apply, List.map_nil, List.max?_nil, Option.getD_none] at heq
  omega

end Buckets

/-! ## The versions -/

section Versions

/-- The version is written. -/
def first (d : Database) : Database :=
  { d with schemaVersion := if d.schemaVersion = [] then [1] else d.schemaVersion }

def setVersion (version : ℤ) (d : Database) : Database :=
  { d with schemaVersion := d.schemaVersion.map fun _ => version }

/-- The buckets are copied. -/
def second (d : Database) : Database :=
  setVersion 2 { d with metricBuckets := insertBuckets [] (newestBuckets d.metricBuckets) }

def third (d : Database) : Database :=
  setVersion 3 { d with objects := insert .remoteHosts d.objects }

def fourth (d : Database) : Database :=
  setVersion 4 { d with objects := insert .verifiedTerminalJson d.objects }

/-- The sessions get their sources. -/
def fifth (d : Database) : Database :=
  setVersion 5 { d with sessions := withSources typedSources d.sessions }

variable {d : Database} {object : Object} {version : ℤ}

theorem apply_create (h : object ∉ d.objects) :
    apply (.create object) d = .ok { d with objects := insert object d.objects } := by
  rw [apply, if_neg h]

theorem apply_updateVersion (h : .schemaVersion ∈ d.objects) :
    apply (.updateVersion version) d = .ok (setVersion version d) := by
  rw [apply, if_neg (not_not.2 h), setVersion]

theorem apply_dropBuckets (h : .metricBuckets ∈ d.objects) :
    apply .dropBuckets d = .ok { d with
      objects := (d.objects.erase .metricBuckets).erase .metricBucketsByStart
      metricBuckets := [] } := by
  rw [apply, if_neg (not_not.2 h)]

theorem apply_renameBuckets (hv2 : .metricBucketsV2 ∈ d.objects)
    (hold : .metricBuckets ∉ d.objects) :
    apply .renameBuckets d = .ok { d with
      objects := insert .metricBuckets (d.objects.erase .metricBucketsV2)
      metricBuckets := d.metricBucketsV2
      metricBucketsV2 := [] } := by
  rw [apply, if_neg (not_not.2 hv2), if_neg hold]

/-- The copy of the buckets does not violate the new key. -/
theorem apply_copyBuckets (hold : .metricBuckets ∈ d.objects)
    (hnew : .metricBucketsV2 ∈ d.objects) (hv2 : d.metricBucketsV2 = [])
    (hrowids : (d.metricBuckets.map Prod.fst).Nodup) :
    apply .copyBuckets d = .ok { d with
      metricBucketsV2 := insertBuckets [] (newestBuckets d.metricBuckets) } := by
  have hall : (newestBuckets d.metricBuckets).all (fun row => row.sessionId.isSome) = true := by
    rw [newestBuckets_eq hrowids, List.all_map]
    exact List.all_eq_true.2 fun row _ => rfl
  have hkeys : ((newestBuckets d.metricBuckets).filterMap primaryKey).Nodup := by
    rw [primaryKeys_newest hrowids]
    exact newest_keys_nodup hrowids
  simp [apply, hold, hnew, hv2, hall, hkeys]

/-- What exists while the buckets are copied. -/
def copying : Finset Object :=
  insert .metricBucketsV2 firstObjects.toFinset

def copied : Finset Object :=
  (copying.erase .metricBuckets).erase .metricBucketsByStart

def renamed : Finset Object :=
  insert .metricBuckets (copied.erase .metricBucketsV2)

/-- The steps of the copy, by what exists. -/
theorem copy_objects : .metricBucketsV2 ∉ firstObjects.toFinset ∧ .metricBuckets ∈ copying ∧
    .metricBucketsV2 ∈ copying ∧ .metricBucketsV2 ∈ copied ∧ .metricBuckets ∉ copied ∧
    .metricBucketsByStart ∉ renamed ∧ .schemaVersion ∈ firstObjects.toFinset ∧
    insert .metricBucketsByStart renamed = firstObjects.toFinset := by
  decide

theorem applyAll_migration002 (hobjects : d.objects = firstObjects.toFinset)
    (hv2 : d.metricBucketsV2 = []) (hrowids : (d.metricBuckets.map Prod.fst).Nodup) :
    applyAll apply migration002 d = .ok (second d) := by
  obtain ⟨objects, version, sessions, events, buckets, v2⟩ := d
  obtain rfl : objects = firstObjects.toFinset := hobjects
  obtain rfl : v2 = [] := hv2
  obtain ⟨hfree, hold, hnew, hnew', hdropped, hindex, hversion, hback⟩ := copy_objects
  have hcreate : apply (.create .metricBucketsV2)
      ⟨firstObjects.toFinset, version, sessions, events, buckets, []⟩ =
        .ok ⟨copying, version, sessions, events, buckets, []⟩ := apply_create hfree
  have hcopy : apply .copyBuckets ⟨copying, version, sessions, events, buckets, []⟩ =
      .ok ⟨copying, version, sessions, events, buckets,
        insertBuckets [] (newestBuckets buckets)⟩ := apply_copyBuckets hold hnew rfl hrowids
  have hdrop : apply .dropBuckets ⟨copying, version, sessions, events, buckets,
      insertBuckets [] (newestBuckets buckets)⟩ = .ok ⟨copied, version, sessions, events, [],
        insertBuckets [] (newestBuckets buckets)⟩ := apply_dropBuckets hold
  have hrename : apply .renameBuckets ⟨copied, version, sessions, events, [],
      insertBuckets [] (newestBuckets buckets)⟩ = .ok ⟨renamed, version, sessions, events,
        insertBuckets [] (newestBuckets buckets), []⟩ := apply_renameBuckets hnew' hdropped
  have hstart : apply (.create .metricBucketsByStart) ⟨renamed, version, sessions, events,
      insertBuckets [] (newestBuckets buckets), []⟩ = .ok ⟨firstObjects.toFinset, version,
        sessions, events, insertBuckets [] (newestBuckets buckets), []⟩ := by
    rw [← hback]
    exact apply_create hindex
  have hset : apply (.updateVersion 2) ⟨firstObjects.toFinset, version, sessions, events,
      insertBuckets [] (newestBuckets buckets), []⟩ =
        .ok (second ⟨firstObjects.toFinset, version, sessions, events, buckets, []⟩) :=
    apply_updateVersion hversion
  rw [migration002, applyAll_cons hcreate, applyAll_cons hcopy, applyAll_cons hdrop,
    applyAll_cons hrename, applyAll_cons hstart, applyAll_cons hset]
  rfl

theorem applyAll_migration003 (hobjects : .remoteHosts ∉ d.objects)
    (hversion : .schemaVersion ∈ d.objects) :
    applyAll apply migration003 d = .ok (third d) := by
  rw [migration003, applyAll_cons (apply_create hobjects),
    applyAll_cons (apply_updateVersion (Finset.mem_insert_of_mem hversion))]
  rfl

theorem applyAll_migration004 (hobjects : .verifiedTerminalJson ∉ d.objects)
    (hversion : .schemaVersion ∈ d.objects) :
    applyAll apply migration004 d = .ok (fourth d) := by
  rw [migration004, applyAll_cons (apply_create hobjects),
    applyAll_cons (apply_updateVersion (Finset.mem_insert_of_mem hversion))]
  rfl

theorem apply_updateSource {source : String} {labels : List String} (h : .sessions ∈ d.objects)
    (hkeys : (d.sessions.map sessionKey).Nodup)
    (hids : (d.sessions.filterMap SessionRow.id).Nodup) (hclear : Clear source labels d.sessions) :
    apply (.updateSource source labels) d =
      .ok { d with sessions := withSource source labels d.sessions } := by
  rw [apply, if_neg (not_not.2 h), if_pos (keys_withSource hkeys hids hclear)]

/-- The updates of different sources do not get in each other's way. -/
theorem applyAll_updateSources {typed : List (String × List String)}
    (hdistinct : (typed.map Prod.fst).Nodup) (hgeneric : ∀ t ∈ typed, t.1 ≠ "Generic")
    (hsessions : .sessions ∈ d.objects) (hkeys : (d.sessions.map sessionKey).Nodup)
    (hids : (d.sessions.filterMap SessionRow.id).Nodup)
    (hclear : ∀ t ∈ typed, Clear t.1 t.2 d.sessions) (rest : List Statement) :
    applyAll apply (typed.map (fun t => .updateSource t.1 t.2) ++ rest) d =
      applyAll apply rest { d with sessions := withSources typed d.sessions } ∧
    ((withSources typed d.sessions).map sessionKey).Nodup := by
  induction typed generalizing d with
  | nil => exact ⟨rfl, hkeys⟩
  | cons first typed ih =>
    obtain ⟨hfirst, hdistinct⟩ := List.nodup_cons.1 hdistinct
    obtain ⟨hfirst_generic, hgeneric⟩ := List.forall_mem_cons.1 hgeneric
    obtain ⟨hfirst_clear, hclear⟩ := List.forall_mem_cons.1 hclear
    have hids' : ((withSource first.1 first.2 d.sessions).filterMap SessionRow.id).Nodup := by
      rwa [filterMap_ids (exceptSource_withSource first.1 first.2 d.sessions)]
    rw [List.map_cons, List.cons_append,
      applyAll_cons (apply_updateSource hsessions hkeys hids hfirst_clear)]
    refine ih (d := { d with sessions := withSource first.1 first.2 d.sessions }) hdistinct hgeneric
      hsessions (keys_withSource hkeys hids hfirst_clear) hids' fun t ht => ?_
    refine (hclear t ht).withSource (fun heq => hfirst ?_) hfirst_generic
    exact heq ▸ List.mem_map_of_mem ht

theorem applyAll_migration005 (hsessions : .sessions ∈ d.objects)
    (hversion : .schemaVersion ∈ d.objects) (hkeys : (d.sessions.map sessionKey).Nodup)
    (hids : (d.sessions.filterMap SessionRow.id).Nodup)
    (hclear : ∀ t ∈ typedSources, Clear t.1 t.2 d.sessions) :
    applyAll apply migration005 d = .ok (fifth d) ∧ ((fifth d).sessions.map sessionKey).Nodup := by
  have hdistinct : (typedSources.map Prod.fst).Nodup ∧ ∀ t ∈ typedSources, t.1 ≠ "Generic" := by
    decide
  obtain ⟨hupdates, hunique⟩ := applyAll_updateSources hdistinct.1 hdistinct.2 hsessions hkeys hids
    hclear [.updateVersion 5]
  have hset : apply (.updateVersion 5) { d with sessions := withSources typedSources d.sessions } =
      .ok (fifth d) := apply_updateVersion hversion
  refine ⟨hupdates.trans ?_, hunique⟩
  rw [applyAll_cons hset]
  rfl

theorem versionOf_setVersion (hobject : .schemaVersion ∈ d.objects) (hne : d.schemaVersion ≠ []) :
    versionOf (setVersion version d) = some version := by
  have hversion : versionOf (setVersion version d) =
      (d.schemaVersion.map fun _ => version).head? := if_pos hobject
  obtain ⟨head, tail, hcons⟩ := List.exists_cons_of_ne_nil hne
  rw [hversion, hcons]
  rfl

theorem schemaVersion_first_ne (d : Database) : (first d).schemaVersion ≠ [] := by
  rw [first]
  dsimp only
  split_ifs with hempty
  · exact List.cons_ne_nil 1 []
  · exact hempty

theorem versionOf_first (h : IsVersion1 d) : versionOf (first d) = some 1 := by
  have hobject : .schemaVersion ∈ (first d).objects := by
    rw [first, h.objects]
    decide
  obtain ⟨head, tail, hcons⟩ := List.exists_cons_of_ne_nil (schemaVersion_first_ne d)
  have hhead : head = 1 := by
    have hmem : head ∈ (first d).schemaVersion := hcons ▸ List.mem_cons_self
    rw [first] at hmem
    dsimp only at hmem
    split_ifs at hmem with hempty
    · exact List.mem_singleton.1 hmem
    · exact h.version head hmem
  rw [versionOf, if_pos hobject, hcons, List.head?_cons, hhead]

end Versions

/-! ## Runs -/

section Runs

variable {d : Database}

/-- The databases that are committed on the way. -/
def version2 (d : Database) : Database :=
  second (first d)

def version3 (d : Database) : Database :=
  third (version2 d)

def version4 (d : Database) : Database :=
  fourth (version3 d)

def version5 (d : Database) : Database :=
  fifth (version4 d)

def stages (d : Database) : List Database :=
  [d, first d, version2 d, version3 d, version4 d, version5 d]

def pragmas : List (Command Statement) :=
  [.plain (.pragma "journal_mode=WAL"), .plain (.pragma "foreign_keys=ON")]

theorem applyMigrations_of_version {e : Database} {version : ℤ} (h : versionOf e = some version) :
    applyMigrations e = below version 2 migration002 ++ (below version 3 migration003 ++
      (below version 4 migration004 ++ (below version 5 migration005 ++ pragmas))) := by
  rw [applyMigrations, h]
  rfl

/-- Each migration takes one version to the next one. -/
theorem applyAll_migrations (h : IsVersion1 d)
    (hclear : ∀ t ∈ typedSources, Clear t.1 t.2 d.sessions) :
    applyAll apply migration002 (first d) = .ok (version2 d) ∧
    applyAll apply migration003 (version2 d) = .ok (version3 d) ∧
    applyAll apply migration004 (version3 d) = .ok (version4 d) ∧
    applyAll apply migration005 (version4 d) = .ok (version5 d) ∧
    ((version5 d).sessions.map sessionKey).Nodup := by
  have hset : .schemaVersion ∈ firstObjects.toFinset ∧ .remoteHosts ∉ firstObjects.toFinset ∧
      .schemaVersion ∈ insert .remoteHosts firstObjects.toFinset ∧
      .verifiedTerminalJson ∉ insert .remoteHosts firstObjects.toFinset ∧
      .schemaVersion ∈ insert .verifiedTerminalJson (insert .remoteHosts firstObjects.toFinset) ∧
      .sessions ∈ insert .verifiedTerminalJson (insert .remoteHosts firstObjects.toFinset) := by
    decide
  rw [← h.objects] at hset
  obtain ⟨hversion2, hremote, hversion3, hterminal, hversion4, hsessions⟩ := hset
  refine ⟨applyAll_migration002 h.objects h.v2 h.constraints.rowids,
    applyAll_migration003 hremote hversion2, applyAll_migration004 hterminal hversion3, ?_⟩
  exact applyAll_migration005 hsessions hversion4 h.constraints.sessionKeys
    h.constraints.sessionIds hclear

/-- The versions that are read. -/
theorem versionOf_stages (h : IsVersion1 d) :
    versionOf (first d) = some 1 ∧ versionOf (version2 d) = some 2 ∧
    versionOf (version3 d) = some 3 ∧ versionOf (version4 d) = some 4 ∧
    versionOf (version5 d) = some 5 := by
  have hset : .schemaVersion ∈ firstObjects.toFinset ∧
      .schemaVersion ∈ insert .remoteHosts firstObjects.toFinset ∧
      .schemaVersion ∈ insert .verifiedTerminalJson (insert .remoteHosts firstObjects.toFinset) := by
    decide
  rw [← h.objects] at hset
  obtain ⟨hversion2, hversion3, hversion4⟩ := hset
  have hne : ∀ {e : Database} {version : ℤ}, e.schemaVersion ≠ [] →
      (setVersion version e).schemaVersion ≠ [] := by
    intro e version he
    simpa [setVersion] using he
  have hne1 := schemaVersion_first_ne d
  have hne2 : (version2 d).schemaVersion ≠ [] := hne hne1
  have hne3 : (version3 d).schemaVersion ≠ [] := hne hne2
  have hne4 : (version4 d).schemaVersion ≠ [] := hne hne3
  exact ⟨versionOf_first h, versionOf_setVersion hversion2 hne1,
    versionOf_setVersion hversion3 hne2, versionOf_setVersion hversion4 hne3,
    versionOf_setVersion hversion4 hne4⟩

/-- The first migration changes nothing where everything exists. -/
theorem leads_createMissing {Good : Database → Prop} {final : Database} {objects : List Object}
    {rest : List (Command Statement)} (hgood : Good d) (hobjects : ∀ o ∈ objects, o ∈ d.objects)
    (h : Leads apply Good final ⟨d, none⟩ rest) :
    Leads apply Good final ⟨d, none⟩ ((objects.map .createMissing).map .plain ++ rest) := by
  induction objects with
  | nil => exact h
  | cons o objects ih =>
    obtain ⟨ho, hobjects⟩ := List.forall_mem_cons.1 hobjects
    have happly : apply (.createMissing o) d = .ok d := by
      rw [apply, Finset.insert_eq_of_mem ho]
    exact leads_plain hgood happly (ih hobjects)

/-- From every version the commands lead to the last one. -/
theorem leads_stages (h : IsVersion1 d)
    (hclear : ∀ t ∈ typedSources, Clear t.1 t.2 d.sessions) :
    ∀ e ∈ stages d, Leads apply (· ∈ stages d) (version5 d) ⟨e, none⟩ (applyMigrations e) := by
  obtain ⟨h2, h3, h4, h5, -⟩ := applyAll_migrations h hclear
  obtain ⟨hv1, hv2, hv3, hv4, hv5⟩ := versionOf_stages h
  have hmem : d ∈ stages d ∧ first d ∈ stages d ∧ version2 d ∈ stages d ∧ version3 d ∈ stages d ∧
      version4 d ∈ stages d ∧ version5 d ∈ stages d := by
    simp [stages]
  obtain ⟨hmem0, hmem1, hmem2, hmem3, hmem4, hmem5⟩ := hmem
  have l5 : Leads apply (· ∈ stages d) (version5 d) ⟨version5 d, none⟩ pragmas :=
    leads_plain hmem5 rfl (leads_plain hmem5 rfl ⟨rfl, hmem5⟩)
  have l4 := leads_block hmem4 h5 l5
  have l3 := leads_block hmem3 h4 l4
  have l2 := leads_block hmem2 h3 l3
  have l1 := leads_block hmem1 h2 l2
  intro e he
  simp only [stages, List.mem_cons, List.not_mem_nil, or_false] at he
  rcases he with heq | rfl | rfl | rfl | rfl | rfl
  · rw [heq]
    by_cases hempty : d.schemaVersion = []
    · -- the version was not written
      have hobject : .schemaVersion ∈ d.objects := by
        rw [h.objects]
        decide
      have hnone : versionOf d = none := by
        rw [versionOf, if_pos hobject, hempty]
        rfl
      have hinsert : apply (.insertVersion 1) d = .ok (first d) := by
        rw [apply, if_neg (not_not.2 hobject), first, hempty]
        rfl
      have hall : ∀ o ∈ firstObjects, o ∈ d.objects := by
        intro o ho
        rw [h.objects]
        exact List.mem_toFinset.2 ho
      rw [applyMigrations, hnone, if_pos rfl, List.append_assoc]
      exact leads_createMissing hmem0 hall (leads_plain hmem0 hinsert l1)
    · have hfirst : first d = d := by
        rw [first, if_neg hempty]
      rw [hfirst] at hv1 l1
      rw [applyMigrations_of_version hv1]
      exact l1
  · rw [applyMigrations_of_version hv1]
    exact l1
  · rw [applyMigrations_of_version hv2]
    exact l2
  · rw [applyMigrations_of_version hv3]
    exact l3
  · rw [applyMigrations_of_version hv4]
    exact l4
  · rw [applyMigrations_of_version hv5]
    exact l5

/-- Every version keeps the constraints and the sessions, except for their source, and the
events. -/
theorem constraints_stages (h : IsVersion1 d)
    (hclear : ∀ t ∈ typedSources, Clear t.1 t.2 d.sessions) :
    ∀ e ∈ stages d, Constraints e ∧ e.sessions.map exceptSource = d.sessions.map exceptSource ∧
      e.sessionEvents = d.sessionEvents := by
  have hc := h.constraints
  have hbuckets : ((insertBuckets [] (newestBuckets d.metricBuckets)).filterMap
      fun row => primaryKey row.2).Nodup := by
    have hrows := congrArg (List.filterMap primaryKey)
      (snd_insertBuckets (newestBuckets d.metricBuckets))
    rw [List.filterMap_map, primaryKeys_newest hc.rowids] at hrows
    exact hrows ▸ newest_keys_nodup hc.rowids
  have hcopied : ∀ e : Database, e.sessions = d.sessions → e.sessionEvents = d.sessionEvents →
      e.metricBuckets = insertBuckets [] (newestBuckets d.metricBuckets) → Constraints e := by
    intro e hsessions hevents hrows
    constructor <;> simp only [hsessions, hevents, hrows]
    · exact hc.sessionIds
    · exact hc.sessionKeys
    · exact hc.eventIds
    · exact hc.eventKeys
    · exact hc.eventSessions
    · exact rowids_insertBuckets _
    · exact hbuckets
  have hlast : Constraints (version5 d) := by
    have hcopied4 : Constraints (version4 d) := hcopied _ rfl rfl rfl
    have hsame : (version5 d).sessions.map exceptSource = d.sessions.map exceptSource :=
      exceptSource_withSources typedSources d.sessions
    refine ⟨?_, (applyAll_migrations h hclear).2.2.2.2, hc.eventIds, hc.eventKeys, ?_,
      hcopied4.rowids, hcopied4.bucketKeys⟩
    · rw [filterMap_ids hsame]
      exact hc.sessionIds
    · intro event hevent
      obtain ⟨session, hsession, hid⟩ := hc.eventSessions event hevent
      have hmem : session.id ∈ (version5 d).sessions.map SessionRow.id := by
        rw [ids_of_exceptSource hsame]
        exact List.mem_map_of_mem hsession
      obtain ⟨row, hrow, hrow_id⟩ := List.mem_map.1 hmem
      exact ⟨row, hrow, hrow_id.trans hid⟩
  intro e he
  simp only [stages, List.mem_cons, List.not_mem_nil, or_false] at he
  rcases he with heq | rfl | rfl | rfl | rfl | rfl
  · rw [heq]
    exact ⟨hc, rfl, rfl⟩
  · exact ⟨⟨hc.sessionIds, hc.sessionKeys, hc.eventIds, hc.eventKeys, hc.eventSessions, hc.rowids,
      hc.bucketKeys⟩, rfl, rfl⟩
  · exact ⟨hcopied _ rfl rfl rfl, rfl, rfl⟩
  · exact ⟨hcopied _ rfl rfl rfl, rfl, rfl⟩
  · exact ⟨hcopied _ rfl rfl rfl, rfl, rfl⟩
  · exact ⟨hlast, exceptSource_withSources typedSources d.sessions, rfl⟩

/-- The last version. -/
theorem migrated_version5 (h : IsVersion1 d)
    (hclear : ∀ t ∈ typedSources, Clear t.1 t.2 d.sessions) : Migrated d (version5 d) := by
  have hlast : version5 d ∈ stages d := by
    simp [stages]
  obtain ⟨hconstraints, hsessions, hevents⟩ := constraints_stages h hclear _ hlast
  have hrowids := h.constraints.rowids
  have hbuckets : (version5 d).metricBuckets = insertBuckets [] (newestBuckets d.metricBuckets) :=
    rfl
  have hrows : (version5 d).metricBuckets.map Prod.snd = newestBuckets d.metricBuckets := by
    rw [hbuckets, snd_insertBuckets]
  have hiff : ∀ row, row ∈ (version5 d).metricBuckets.map Prod.snd ↔
      ∃ old ∈ d.metricBuckets, Newest d.metricBuckets old ∧ row = canonical old.2 := by
    intro row
    rw [hrows, newestBuckets_eq hrowids, List.mem_map]
    constructor
    · rintro ⟨old, hold, rfl⟩
      obtain ⟨hold, hnewest⟩ := List.mem_filter.1 hold
      exact ⟨old, hold, of_decide_eq_true hnewest, rfl⟩
    · rintro ⟨old, hold, hnewest, rfl⟩
      exact ⟨old, List.mem_filter.2 ⟨hold, decide_eq_true hnewest⟩, rfl⟩
  refine ⟨(versionOf_stages h).2.2.2.2, hconstraints, hsessions, hevents, ?_, ?_, hiff, ?_⟩
  · intro row hrow
    obtain ⟨old, -, -, heq⟩ := (hiff row.2).1 (List.mem_map_of_mem hrow)
    rw [heq]
    rfl
  · have hkeys := newest_keys_nodup hrowids
    rw [← hrows, List.map_map] at hkeys
    exact hkeys
  · intro old hold
    obtain ⟨newest, hnewest, hkey, hmax⟩ := newest_exists hold
    obtain ⟨row, hrow, heq⟩ := List.mem_map.1
      ((hiff (canonical newest.2)).2 ⟨newest, hnewest, hmax, rfl⟩)
    refine ⟨row, hrow, ?_⟩
    rw [heq, bucketKey_canonical, hkey]

end Runs

/-- From a database of version 1 in which no session with a null identifier is in the way of an
update, and wherever the process stops : what is committed keeps the constraints, the sessions
except for their source, and the events; no statement fails; and `apply_migrations`, started again,
returns with the migrated database. -/
theorem migrations_resume {d : Database} (h : IsVersion1 d)
    (hclear : ∀ t ∈ typedSources, Clear t.1 t.2 d.sessions) {acts : List Act}
    {p : Process Database Statement SqlError}
    (hrun : run (step apply applyMigrations) (.idle d) acts = some p) :
    Constraints p.connection.committed ∧
    p.connection.committed.sessions.map exceptSource = d.sessions.map exceptSource ∧
    p.connection.committed.sessionEvents = d.sessionEvents ∧
    (∀ e, p.status ≠ .failed e) ∧
    (p.status = .returned → p.connection.working = none ∧ Migrated d p.connection.committed) ∧
    ∃ n q, run (step apply applyMigrations) p (.stop :: .start :: List.replicate n .exec) =
      some q ∧ q.status = .returned ∧ Migrated d q.connection.committed := by
  have hstart : d ∈ stages d := by
    simp [stages]
  obtain ⟨hgood, hfailed, hreturned, n, hn⟩ := resumes (leads_stages h hclear) hstart hrun
  obtain ⟨hconstraints, hsessions, hevents⟩ := constraints_stages h hclear _ hgood
  have hmigrated := migrated_version5 h hclear
  refine ⟨hconstraints, hsessions, hevents, hfailed, fun hstatus => ?_, n, _, hn, rfl, hmigrated⟩
  rw [hreturned hstatus]
  exact ⟨rfl, hmigrated⟩

/-! ## Two databases of version 1 -/

def sampleSession (id : Option String) (source label : String) : SessionRow :=
  ⟨id, source, "ext", label, none, "Active", "None", 1, 2, none, none, none, none, none⟩

def sampleBucket (rowid : ℤ) : ℤ × BucketRow :=
  (rowid, ⟨"host", none, 0, ⟨0, 0, rowid, 0, 0, 0, 0⟩⟩)

/-- A bucket of the host has three rows. -/
def sampleDatabase (sessions : List SessionRow) : Database where
  objects := firstObjects.toFinset
  schemaVersion := [1]
  sessions := sessions
  sessionEvents := [⟨some "e", "s", 1, 2, "Message", "Info", "hello", none⟩]
  metricBuckets := [sampleBucket 1, sampleBucket 4, sampleBucket 3]
  metricBucketsV2 := []

theorem isVersion1_sample {sessions : List SessionRow}
    (hids : (sessions.filterMap SessionRow.id).Nodup) (hkeys : (sessions.map sessionKey).Nodup)
    (hsession : ∃ s ∈ sessions, s.id = some "s") : IsVersion1 (sampleDatabase sessions) where
  objects := rfl
  version := by simp [sampleDatabase]
  v2 := rfl
  constraints :=
    { sessionIds := hids
      sessionKeys := hkeys
      eventIds := by simp [sampleDatabase]
      eventKeys := by simp [sampleDatabase]
      eventSessions := by simpa [sampleDatabase] using hsession
      rowids := by simp [sampleDatabase, sampleBucket]
      bucketKeys := by simp [sampleDatabase, sampleBucket, primaryKey] }

/-- An old session next to one of its source. -/
def typedSessions : List SessionRow :=
  [sampleSession (some "s") "Generic" " Qwen session ", sampleSession (some "t") "Qwen" "x"]

/-- The process stops while the buckets are copied, and is started again. -/
def interrupted : List Act :=
  [.start, .exec, .exec, .exec, .exec, .stop, .start] ++ List.replicate 25 .exec

theorem migrations_resume_interrupted : ∃ p : Process Database Statement SqlError,
    run (step apply applyMigrations) (.idle (sampleDatabase typedSessions)) interrupted = some p ∧
    p.status = .returned ∧ Migrated (sampleDatabase typedSessions) p.connection.committed := by
  have hstatus : (run (step apply applyMigrations) (.idle (sampleDatabase typedSessions))
      interrupted).map Process.status = some .returned := by
    decide
  obtain ⟨p, hrun, hreturned⟩ := Option.map_eq_some_iff.1 hstatus
  have hversion : IsVersion1 (sampleDatabase typedSessions) :=
    isVersion1_sample (by decide) (by decide) (by decide)
  have hclear : ∀ t ∈ typedSources, Clear t.1 t.2 (sampleDatabase typedSessions).sessions := by
    unfold Clear
    decide
  obtain ⟨-, -, -, -, hdone, -⟩ := migrations_resume hversion hclear hrun
  exact ⟨p, hrun, hreturned, (hdone hreturned).2⟩

/-- An old session next to one of its source that has no identifier. -/
def nullSessions : List SessionRow :=
  [sampleSession (some "s") "Generic" "Qwen session", sampleSession none "Qwen" "x"]

/-- The update violates the key of the sessions, and so does every later start. -/
theorem migration_violates_key : IsVersion1 (sampleDatabase nullSessions) ∧
    (run (step apply applyMigrations) (.idle (sampleDatabase nullSessions))
      (.start :: List.replicate 18 .exec)).map Process.status =
        some (.failed (.statement
          (.uniqueFailed "sessions.source, sessions.external_session_id"))) ∧
    (run (step apply applyMigrations) (.idle (sampleDatabase nullSessions))
      (.start :: List.replicate 18 .exec ++ .start :: List.replicate 2 .exec)).map Process.status =
        some (.failed (.statement
          (.uniqueFailed "sessions.source, sessions.external_session_id"))) := by
  refine ⟨isVersion1_sample (by decide) (by decide) (by decide), ?_, ?_⟩
  · decide
  · decide

end Migrations

end LlmNotch
