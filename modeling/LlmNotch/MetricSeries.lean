import LlmNotch.Repository
import LlmNotch.Thinning

/-!
# Metric series

The metric history the repository loads : a statement that drops points of a series by a stride,
and after it `downsample_preserving_edges`, which picks points by scaling an index.

The stride is rounded up, so the statement leaves at most as many points as are asked for and the
second pass has nothing to do (`length_keptRows_le`). The points of a series are stored buckets
in order, with the first and the last of them (`load_metric_series_faithful`).
-/

namespace LlmNotch

namespace Repository

open Thinning

structure PersistedMetricSeries where
  points : List MetricSample := []
  actualFirstMs : Option ℤ := none
  actualLastMs : Option ℤ := none
  totalPoints : ℕ := 0
  downsampled : Bool := false
  deriving DecidableEq

structure PersistedMetricHistory where
  requestedStartMs : ℤ
  requestedEndMs : ℤ
  host : PersistedMetricSeries
  aggregate : PersistedMetricSeries
  agents : List (String × PersistedMetricSeries)
  deriving DecidableEq

/-- `historical_sample_from_row` -/
def historicalSample (row : MetricBucket) : MetricSample where
  atMs := row.bucketStartMs
  cpuHostPercent := row.cpuHostPercent
  cpuCorePercent := row.cpuCorePercent
  rssBytes := row.rssBytes.toNat
  runtimeMs := row.runtimeMs.toNat
  processCount := row.processCount
  readBytesPerSec := row.readBytesPerSec.toNat
  writeBytesPerSec := row.writeBytesPerSec.toNat
  quality := {
    attribution := .unknown
    cpu := .available
    ioQuality := .unavailable
    reason := some "historical quality metadata is not persisted" }

/-- A series and a range of time. -/
structure SeriesRange where
  scope : String
  sessionId : String
  startMs : ℤ
  endMs : ℤ

/-- The rows of a series in a range. -/
def SeriesRange.bucketsIn (range : SeriesRange) (db : Database) : List MetricBucket :=
  db.metricBuckets.filter fun row =>
    row.scope = range.scope ∧ row.sessionId = range.sessionId ∧
      range.startMs ≤ row.bucketStartMs ∧ row.bucketStartMs ≤ range.endMs

/-- `ORDER BY bucket_start_ms` -/
def SeriesRange.rows (range : SeriesRange) (db : Database) : List MetricBucket :=
  (range.bucketsIn db).insertionSort fun a b => a.bucketStartMs ≤ b.bucketStartMs

/-- A division in Rust. -/
def divide (dividend divisor : ℕ) : StoreM ℕ :=
  if divisor = 0 then throw (.panic "attempt to divide by zero") else pure (dividend / divisor)

/-- What is divided for the stride. The sum is a `usize` and wraps around. -/
def strideDividend (totalPoints maxPoints : ℕ) : ℕ :=
  (totalPoints - 1 + (maxPoints - 2)) % 2 ^ 64

/-- The condition of the statement on a row. -/
def keepsPoint (pointCount maxPoints stride pointIndex : ℤ) : Bool :=
  pointCount ≤ maxPoints || pointIndex = 1 || pointIndex = pointCount ||
    (pointIndex - 1).tmod stride = 0

/-- The rows the statement returns. -/
def keptRows (maxPoints stride : ℕ) (rows : List MetricBucket) : List MetricBucket :=
  keepIndexed (fun pointIndex =>
    keepsPoint rows.length (wrapI64 maxPoints) (wrapI64 (max stride 1 : ℕ)) pointIndex) rows

/-- What is divided for an index of the second pass. -/
def sourceDividend (length index : ℕ) : ℕ :=
  min (index * (length - 1)) (2 ^ 64 - 1)

def downsamplePreservingEdges (points : List MetricSample) (maxPoints : ℕ) :
    StoreM (List MetricSample) :=
  if points.length ≤ maxPoints then pure points
  else do
    let sources ← (List.range maxPoints).mapM fun index => do
      let sourceIndex ← divide (sourceDividend points.length index) (maxPoints - 1)
      pure points[sourceIndex]?
    pure (sources.filterMap id)

def loadMetricSeries (range : SeriesRange) (maxPoints : ℕ) : StoreM PersistedMetricSeries := do
  let (totalPoints, actualFirstMs, actualLastMs) ← query fun db =>
    let times := (range.bucketsIn db).map (·.bucketStartMs)
    (times.length, times.min?, times.max?)
  if totalPoints = 0 then pure {}
  else do
    let stride ← divide (strideDividend totalPoints maxPoints) (maxPoints - 1)
    let kept ← query fun db => keptRows maxPoints stride (range.rows db)
    let points ← downsamplePreservingEdges (kept.map historicalSample) maxPoints
    pure {
      points
      actualFirstMs
      actualLastMs
      totalPoints
      downsampled := maxPoints < totalPoints }

/-- The agents with a bucket in the range, in order. -/
def agentsInRange (startMs endMs : ℤ) (db : Database) : List String :=
  ((db.metricBuckets.filter fun row => row.scope = "agent" ∧
    startMs ≤ row.bucketStartMs ∧ row.bucketStartMs ≤ endMs).map
      (·.sessionId)).dedup.insertionSort (· ≤ ·)

def loadPersistedMetricHistory (requestedStartMs requestedEndMs : ℤ) (maxPointsPerSeries : ℕ) :
    StoreM PersistedMetricHistory := do
  let load (scope sessionId : String) := loadMetricSeries
    ⟨scope, sessionId, requestedStartMs, requestedEndMs⟩ maxPointsPerSeries
  if maxPointsPerSeries < 2 ∨ requestedEndMs < requestedStartMs then
    throw (.err (.validation "invalid metric history range or per-series limit"))
  else do
    let sessionIds ← query (agentsInRange requestedStartMs requestedEndMs)
    let agents ← sessionIds.mapM fun sessionId => do
      let series ← load "agent" sessionId
      pure (sessionId, series)
    let host ← load "host" hostMetricSessionKey
    let aggregate ← load "aggregate" hostMetricSessionKey
    pure ⟨requestedStartMs, requestedEndMs, host, aggregate, agents⟩

/-! ## The stride -/

section Stride

variable {total maxPoints : ℕ}

theorem wrapI64_of_lt {n : ℕ} (h : n < 2 ^ 63) : wrapI64 n = n := by
  unfold wrapI64
  exact Int.bmod_eq_of_le (by omega) (by omega)

/-- The stride covers the series in one step less than there are points. -/
theorem stride_covers (hmax : 2 ≤ maxPoints) (hmany : maxPoints < total)
    (htotal : total < 2 ^ 63) :
    0 < strideDividend total maxPoints / (maxPoints - 1) ∧
    strideDividend total maxPoints / (maxPoints - 1) < 2 ^ 63 ∧
    total - 1 ≤ strideDividend total maxPoints / (maxPoints - 1) * (maxPoints - 1) := by
  have hdividend : strideDividend total maxPoints = total - 1 + (maxPoints - 2) :=
    Nat.mod_eq_of_lt (by omega)
  have hpos : 0 < maxPoints - 1 := by omega
  rw [hdividend]
  have hdiv := Nat.div_add_mod (total - 1 + (maxPoints - 2)) (maxPoints - 1)
  have hmod := Nat.mod_lt (total - 1 + (maxPoints - 2)) hpos
  refine ⟨Nat.div_pos (by omega) hpos, ?_, ?_⟩
  · refine (Nat.div_lt_iff_lt_mul hpos).2 ?_
    have hle : 2 ^ 63 * 1 ≤ 2 ^ 63 * (maxPoints - 1) := Nat.mul_le_mul_left _ hpos
    by_cases hbig : maxPoints = 2
    · subst hbig
      omega
    · have htwo : 2 ^ 63 * 2 ≤ 2 ^ 63 * (maxPoints - 1) := Nat.mul_le_mul_left _ (by omega)
      omega
  · rw [Nat.mul_comm] at hdiv
    omega

/-- A series that fits has the stride one. -/
theorem stride_of_fits (hmax : 2 ≤ maxPoints) (hfits : total ≤ maxPoints) :
    max (strideDividend total maxPoints / (maxPoints - 1)) 1 = 1 := by
  have hle : strideDividend total maxPoints ≤ total - 1 + (maxPoints - 2) := Nat.mod_le _ _
  have hdiv : strideDividend total maxPoints / (maxPoints - 1) < 2 :=
    (Nat.div_lt_iff_lt_mul (by omega)).2 (by omega)
  omega

/-- The second pass asks for points that are there. -/
theorem sourceDividend_lt {length index : ℕ} (hmax : 2 ≤ maxPoints) (hlength : 0 < length)
    (hindex : index < maxPoints) : sourceDividend length index / (maxPoints - 1) < length := by
  refine (Nat.div_lt_iff_lt_mul (by omega)).2 ?_
  have hle : sourceDividend length index ≤ index * (length - 1) := Nat.min_le_left _ _
  have hmul : index * (length - 1) ≤ (maxPoints - 1) * (length - 1) :=
    Nat.mul_le_mul_right _ (by omega)
  have hlt : (maxPoints - 1) * (length - 1) < (maxPoints - 1) * length :=
    Nat.mul_lt_mul_of_pos_left (by omega) (by omega)
  rw [Nat.mul_comm length]
  omega

end Stride

/-! ## The rows that are kept -/

section Kept

variable {maxPoints : ℕ} {rows : List MetricBucket}

theorem keptRows_of_fits (hmax : 2 ≤ maxPoints) (hfits : rows.length ≤ maxPoints) :
    keptRows maxPoints (strideDividend rows.length maxPoints / (maxPoints - 1)) rows = rows := by
  refine keepIndexed_of_all fun index hfirst hlast => ?_
  rw [stride_of_fits hmax hfits]
  have hone : wrapI64 (1 : ℕ) = 1 := by decide
  unfold keepsPoint
  rw [hone, Int.tmod_one]
  simp

/-- The statement returns no more rows than points are asked for. -/
theorem length_keptRows_le (hmax : 2 ≤ maxPoints) (hcount : rows.length < 2 ^ 63) :
    (keptRows maxPoints (strideDividend rows.length maxPoints / (maxPoints - 1)) rows).length ≤
      maxPoints := by
  by_cases hfits : rows.length ≤ maxPoints
  · rwa [keptRows_of_fits hmax hfits]
  · obtain ⟨hpos, hsmall, hcover⟩ := stride_covers hmax (Nat.lt_of_not_le hfits) hcount
    have hlimit : wrapI64 maxPoints = maxPoints := wrapI64_of_lt (by omega)
    have hstride : wrapI64 (max (strideDividend rows.length maxPoints / (maxPoints - 1)) 1 : ℕ) =
        (strideDividend rows.length maxPoints / (maxPoints - 1) : ℕ) := by
      rw [Nat.max_eq_left hpos]
      exact wrapI64_of_lt hsmall
    have hkeeps : ∀ index : ℕ, 1 ≤ index → keepsPoint rows.length (wrapI64 maxPoints)
        (wrapI64 (max (strideDividend rows.length maxPoints / (maxPoints - 1)) 1 : ℕ)) index =
          true →
        OnStride (strideDividend rows.length maxPoints / (maxPoints - 1)) rows.length index := by
      intro index hfirst hkeeps
      rw [hlimit, hstride] at hkeeps
      have hprev : (index : ℤ) - 1 = (index - 1 : ℕ) := by omega
      simp only [keepsPoint, hprev, Bool.or_eq_true, decide_eq_true_eq, Int.ofNat_le] at hkeeps
      rw [← Int.ofNat_tmod] at hkeeps
      unfold OnStride
      omega
    have hkept := length_keepIndexed_le hpos hcover hkeeps
    unfold keptRows
    omega

/-- What a thinned series keeps of the stored one. -/
structure FaithfulTo (stored : List MetricSample) (maxPoints : ℕ) (points : List MetricSample) :
    Prop where
  sublist : points.Sublist stored
  increasing : points.Pairwise fun a b => a.atMs < b.atMs
  bounded : points.length ≤ maxPoints
  complete : stored.length ≤ maxPoints → points = stored
  first : points.head? = stored.head?
  last : points.getLast? = stored.getLast?

theorem keptRows_faithful (hmax : 2 ≤ maxPoints) (hcount : rows.length < 2 ^ 63)
    (hsorted : rows.Pairwise fun a b => a.bucketStartMs < b.bucketStartMs) :
    FaithfulTo (rows.map historicalSample) maxPoints
      ((keptRows maxPoints (strideDividend rows.length maxPoints / (maxPoints - 1)) rows).map
        historicalSample) where
  sublist := (keepIndexed_sublist _ rows).map historicalSample
  increasing := List.pairwise_map.2 (hsorted.sublist (keepIndexed_sublist _ rows))
  bounded := by
    rw [List.length_map]
    exact length_keptRows_le hmax hcount
  complete h := by
    rw [List.length_map] at h
    rw [keptRows_of_fits hmax h]
  first := by
    rw [List.head?_map, List.head?_map, keptRows, head?_keepIndexed]
    simp [keepsPoint]
  last := by
    rw [List.getLast?_map, List.getLast?_map, keptRows, getLast?_keepIndexed]
    simp [keepsPoint]

end Kept

/-! ## Loading -/

/-- A store after statements that only read. -/
structure OnlyRead (s s' : Store) : Prop where
  db : s'.db = s.db
  faults : s'.faults <:+ s.faults

theorem OnlyRead.trans {s₁ s₂ s₃ : Store} (h : OnlyRead s₁ s₂) (h' : OnlyRead s₂ s₃) :
    OnlyRead s₁ s₃ :=
  ⟨h'.db.trans h.db, h'.faults.trans h.faults⟩

/-- The disk has failed. -/
def DiskFailed (s : Store) (fault : Fault) (s' : Store) : Prop :=
  OnlyRead s s' ∧ fault = .other diskError ∧ true ∈ s.faults

section Loading

variable {s₀ s : Store} {maxPoints : ℕ}

theorem DiskFailed.of_onlyRead {s' : Store} {fault : Fault} (h : OnlyRead s₀ s)
    (hfailed : DiskFailed s fault s') : DiskFailed s₀ fault s' :=
  ⟨h.trans hfailed.1, hfailed.2.1, h.faults.subset hfailed.2.2⟩

theorem wp_query_reads {α : Type} {sql : Database → α} {Q : α → Store → Prop}
    (h : ∀ s', OnlyRead s s' → Q (sql s.db) s') : wp (query sql) s Q (DiskFailed s) := by
  unfold wp query statement
  have htail : OnlyRead s ⟨s.db, s.faults.tail⟩ := ⟨rfl, List.tail_suffix _⟩
  by_cases hfault : s.faults.headD false = true
  · simp only [if_pos hfault]
    refine ⟨htail, rfl, ?_⟩
    cases hfaults : s.faults with
    | nil =>
      rw [hfaults] at hfault
      cases hfault
    | cons fault rest =>
      rw [hfaults] at hfault
      exact List.mem_cons.2 (.inl hfault.symm)
  · simp only [if_neg hfault]
    exact h _ htail

theorem wp_divide {dividend divisor : ℕ} {Q : ℕ → Store → Prop} {E : Fault → Store → Prop}
    (hdivisor : divisor ≠ 0) (h : Q (dividend / divisor) s) :
    wp (divide dividend divisor) s Q E := by
  rw [divide, if_neg hdivisor]
  exact h

/-- There is nothing left to do in the second pass. -/
theorem downsamplePreservingEdges_of_fits {points : List MetricSample}
    (h : points.length ≤ maxPoints) :
    downsamplePreservingEdges points maxPoints = pure points :=
  if_pos h

variable {range : SeriesRange}

theorem rows_perm (range : SeriesRange) (db : Database) :
    (range.rows db).Perm (range.bucketsIn db) :=
  List.perm_insertionSort _ _

theorem rows_sorted {db : Database}
    (hdistinct : ((range.bucketsIn db).map (·.bucketStartMs)).Nodup) :
    (range.rows db).Pairwise fun a b => a.bucketStartMs < b.bucketStartMs := by
  have hle : (range.rows db).Pairwise fun a b => a.bucketStartMs ≤ b.bucketStartMs :=
    List.pairwise_insertionSort _ _
  have hne : (range.rows db).Pairwise fun a b => a.bucketStartMs ≠ b.bucketStartMs :=
    List.pairwise_map.1 (((rows_perm range db).map _).nodup_iff.2 hdistinct)
  exact (hle.and hne).imp fun h => lt_of_le_of_ne h.1 h.2

/-- What the points of a loaded series are. -/
def LoadsFaithfully (range : SeriesRange) (maxPoints : ℕ) (db : Database)
    (series : PersistedMetricSeries) : Prop :=
  ∃ stored, stored.Perm ((range.bucketsIn db).map historicalSample) ∧
    stored.Pairwise (fun a b => a.atMs < b.atMs) ∧ FaithfulTo stored maxPoints series.points

theorem wp_loadMetricSeries (hmax : 2 ≤ maxPoints)
    (hdistinct : ((range.bucketsIn s.db).map (·.bucketStartMs)).Nodup)
    (hcount : (range.bucketsIn s.db).length < 2 ^ 63) :
    wp (loadMetricSeries range maxPoints) s
      (fun series s' => OnlyRead s s' ∧ LoadsFaithfully range maxPoints s.db series)
      (DiskFailed s) := by
  have hsorted := rows_sorted hdistinct
  have hlength : (range.rows s.db).length = (range.bucketsIn s.db).length :=
    (rows_perm range s.db).length_eq
  have hfaithful := keptRows_faithful hmax (hlength ▸ hcount) hsorted
  have hstored : ∀ series : PersistedMetricSeries,
      FaithfulTo ((range.rows s.db).map historicalSample) maxPoints series.points →
        LoadsFaithfully range maxPoints s.db series := fun series h =>
    ⟨_, (rows_perm range s.db).map _, List.pairwise_map.2 hsorted, h⟩
  unfold loadMetricSeries
  rw [wp_bind]
  refine wp_query_reads fun s₁ h₁ => ?_
  dsimp only
  rw [List.length_map]
  split
  · rename_i hempty
    have hnil : range.rows s.db = [] := List.length_eq_zero_iff.1 (hlength.trans hempty)
    rw [wp_pure]
    refine ⟨h₁, hstored _ ?_⟩
    rw [hnil]
    exact ⟨List.Sublist.refl _, List.Pairwise.nil, Nat.zero_le _, fun _ => rfl, rfl, rfl⟩
  · rw [wp_bind]
    refine wp_divide (by omega) ?_
    rw [wp_bind]
    refine wp_mono (wp_query_reads fun s₂ h₂ => ?_) (fun _ _ h => h) fun _ _ h =>
      DiskFailed.of_onlyRead h₁ h
    rw [h₁.db, ← hlength, downsamplePreservingEdges_of_fits hfaithful.bounded]
    exact ⟨h₁.trans h₂, hstored _ hfaithful⟩

/-- The points of a series are stored buckets in order of time, not more than are asked for, with
the first and the last one, and all of them if they fit. Only the disk makes the loading fail, so
nothing is divided by zero; and the second pass, if it had to do something, would find a point for
every index. -/
theorem load_metric_series_faithful (s : Store) (range : SeriesRange) {maxPoints : ℕ}
    (hmax : 2 ≤ maxPoints) (hdistinct : ((range.bucketsIn s.db).map (·.bucketStartMs)).Nodup)
    (hcount : (range.bucketsIn s.db).length < 2 ^ 63) :
    wp (loadMetricSeries range maxPoints) s
      (fun series s' => OnlyRead s s' ∧ LoadsFaithfully range maxPoints s.db series)
      (DiskFailed s) ∧
    ∀ length index, 0 < length → index < maxPoints →
      sourceDividend length index / (maxPoints - 1) < length :=
  ⟨wp_loadMetricSeries hmax hdistinct hcount, fun _ _ => sourceDividend_lt hmax⟩

/-- A bucket of the host. -/
def hostBucket (bucketStartMs : ℤ) : MetricBucket where
  scope := "host"
  sessionId := hostMetricSessionKey
  bucketStartMs
  cpuHostPercent := ⟨0⟩
  cpuCorePercent := ⟨0⟩
  rssBytes := 0
  runtimeMs := 0
  processCount := 1
  readBytesPerSec := 0
  writeBytesPerSec := 0

/-- Three buckets of a host. -/
def hostStore : Store :=
  ⟨{ metricBuckets := [hostBucket 0, hostBucket 4, hostBucket 9] }, []⟩

theorem load_metric_series_faithful_host :
    wp (loadMetricSeries ⟨"host", hostMetricSessionKey, 0, 9⟩ 2) hostStore
      (fun series s' => OnlyRead hostStore s' ∧
        LoadsFaithfully ⟨"host", hostMetricSessionKey, 0, 9⟩ 2 hostStore.db series)
      (DiskFailed hostStore) :=
  (load_metric_series_faithful hostStore ⟨"host", hostMetricSessionKey, 0, 9⟩ le_rfl (by decide)
    (by decide)).1

/-- A stored row under its key, in a table whose keys are different. -/
theorem bucketsIn_distinct {db : Database} (hkeys : (db.metricBuckets.map MetricBucket.key).Nodup)
    (range : SeriesRange) : ((range.bucketsIn db).map (·.bucketStartMs)).Nodup := by
  have hsub : (range.bucketsIn db).Sublist db.metricBuckets := List.filter_sublist
  have hkeys' : ((range.bucketsIn db).map MetricBucket.key).Nodup :=
    hkeys.sublist (hsub.map MetricBucket.key)
  rw [List.Nodup, List.pairwise_map] at hkeys' ⊢
  refine hkeys'.imp_of_mem fun {a b} ha hb hne htime => hne ?_
  have hrow : ∀ {row}, row ∈ range.bucketsIn db →
      row.scope = range.scope ∧ row.sessionId = range.sessionId := by
    intro row hrow
    have hin := of_decide_eq_true (List.mem_filter.1 hrow).2
    exact ⟨hin.1, hin.2.1⟩
  obtain ⟨hscope, hsession⟩ := hrow ha
  obtain ⟨hscope', hsession'⟩ := hrow hb
  simp only [MetricBucket.key, hscope, hsession, hscope', hsession', htime]

/-- Every series of a loaded history is faithful. -/
theorem load_persisted_metric_history_faithful (s : Store) (startMs endMs : ℤ) (maxPoints : ℕ)
    (hkeys : (s.db.metricBuckets.map MetricBucket.key).Nodup)
    (hcount : s.db.metricBuckets.length < 2 ^ 63) :
    wp (loadPersistedMetricHistory startMs endMs maxPoints) s
      (fun history s' => OnlyRead s s' ∧
        LoadsFaithfully ⟨"host", hostMetricSessionKey, startMs, endMs⟩ maxPoints s.db history.host ∧
        LoadsFaithfully ⟨"aggregate", hostMetricSessionKey, startMs, endMs⟩ maxPoints s.db
          history.aggregate ∧
        ∀ agent ∈ history.agents,
          LoadsFaithfully ⟨"agent", agent.1, startMs, endMs⟩ maxPoints s.db agent.2)
      (fun fault s' => DiskFailed s fault s' ∨ s' = s ∧ (maxPoints < 2 ∨ endMs < startMs) ∧
        fault = .err (.validation "invalid metric history range or per-series limit")) := by
  unfold loadPersistedMetricHistory
  dsimp only
  split
  · rename_i hinvalid
    exact .inr ⟨rfl, hinvalid, rfl⟩
  · rename_i hvalid
    have hload : ∀ {s₁ : Store} (range : SeriesRange), OnlyRead s s₁ →
        wp (loadMetricSeries range maxPoints) s₁
          (fun series s' => OnlyRead s s' ∧ LoadsFaithfully range maxPoints s.db series)
          (DiskFailed s) := by
      intro s₁ range h₁
      have hlength : (range.bucketsIn s₁.db).length < 2 ^ 63 := by
        rw [h₁.db]
        exact (List.length_filter_le _ _).trans_lt hcount
      refine wp_mono (wp_loadMetricSeries (by omega) (bucketsIn_distinct (h₁.db ▸ hkeys) range)
        hlength) (fun series s' h => ⟨h₁.trans h.1, h₁.db ▸ h.2⟩) fun _ _ h => h.of_onlyRead h₁
    refine wp_mono (E := DiskFailed s) ?_ (fun _ _ h => h) fun _ _ h => .inl h
    rw [wp_bind]
    refine wp_query_reads fun s₁ h₁ => ?_
    rw [wp_bind]
    refine wp_mono (wp_mapM (I := OnlyRead s) (R := fun agent =>
      LoadsFaithfully ⟨"agent", agent.1, startMs, endMs⟩ maxPoints s.db agent.2)
      (fun id _ s₂ h₂ => ?_) h₁) (fun agents s₂ h₂ => ?_) fun _ _ h => h
    · rw [wp_bind]
      exact wp_mono (hload _ h₂) (fun _ _ h => h) fun _ _ h => h
    · rw [wp_bind]
      refine wp_mono (hload _ h₂.1) (fun host s₃ h₃ => ?_) fun _ _ h => h
      rw [wp_bind]
      refine wp_mono (hload _ h₃.1) (fun aggregate s₄ h₄ => ?_) fun _ _ h => h
      exact ⟨h₄.1, h₃.2, h₄.2, h₂.2⟩

end Loading

end Repository

end LlmNotch
