import LlmNotch.HostIngest
import LlmNotch.SessionMetrics
import Mathlib.Data.List.DropRight

/-!
# The sampler

`MetricsSampler` measures the registered sessions when a refresh is due and keeps the last 900
samples of each. What it answered tells what it keeps : a `SampleLog` has all samples of a
session in the frames returned since it was registered, or the history was cleared.

`sampler_run` : in every run the history of a session is the end of its log, the latest frame
shows the last sample of each log, at most 64 sessions are registered, the samples of one session
are a second apart unless the clock stood at zero, and what a frame shows is right.
-/

namespace LlmNotch

namespace Metrics

open Host (maxActiveRoots)

/-! ## The probe -/

/-- What the system reports at a refresh; of each disk, what was read and written so far. -/
structure Reading where
  hostCpuPercent : F64
  usedMemoryBytes : ℕ
  totalMemoryBytes : ℕ
  visibleProcessCount : ℕ
  disks : List (ℕ × ℕ)
  processes : Measurements

/-- What one refresh of the probe sees. -/
structure ProcessSnapshot where
  atMs : ℤ
  elapsedMs : ℕ
  logicalCores : ℕ
  hostCpuPercent : F64
  usedMemoryBytes : ℕ
  totalMemoryBytes : ℕ
  visibleProcessCount : ℕ
  diskReadBytesPerSec : ℕ
  diskWriteBytesPerSec : ℕ
  processes : Measurements
  cpuReady : CounterReadiness
  ioReady : CounterReadiness
  ioQuality : IoQuality

def ProcessSnapshot.hostSample (snapshot : ProcessSnapshot) : HostMetricSample where
  atMs := snapshot.atMs
  cpuHostPercent := snapshot.hostCpuPercent
  usedMemoryBytes := snapshot.usedMemoryBytes
  totalMemoryBytes := snapshot.totalMemoryBytes
  visibleProcessCount := snapshot.visibleProcessCount
  diskReadBytesPerSec := if snapshot.ioReady = .ready then snapshot.diskReadBytesPerSec else 0
  diskWriteBytesPerSec := if snapshot.ioReady = .ready then snapshot.diskWriteBytesPerSec else 0

/-- The probe with the totals of its last refresh. -/
structure SysinfoProbe where
  logicalCores : ℕ
  ioQuality : IoQuality
  refreshCount : ℕ := 0
  lastRefreshMs : ℤ := 0
  lastDiskReadTotal : ℕ
  lastDiskWriteTotal : ℕ

/-- The bytes read and written on all disks, in a u64. -/
def diskTotals (disks : List (ℕ × ℕ)) : ℕ × ℕ :=
  disks.foldl (fun total disk => (addU64 total.1 disk.1, addU64 total.2 disk.2)) (0, 0)

namespace SysinfoProbe

def new (cpus : ℕ) (ioQuality : IoQuality) (disks : List (ℕ × ℕ)) : SysinfoProbe where
  logicalCores := max cpus 1
  ioQuality
  lastDiskReadTotal := (diskTotals disks).1
  lastDiskWriteTotal := (diskTotals disks).2

def refresh (probe : SysinfoProbe) (atMs : ℤ) (reading : Reading) :
    ProcessSnapshot × SysinfoProbe :=
  let elapsedMs :=
    if 0 < probe.lastRefreshMs then (max (atMs - probe.lastRefreshMs) 1).toNat else 1000
  let (readTotal, writeTotal) := diskTotals reading.disks
  let refreshCount := min (probe.refreshCount + 1) (2 ^ 64 - 1)
  let readiness : CounterReadiness := if 2 ≤ refreshCount then .ready else .warmingUp
  ({ atMs
     elapsedMs
     logicalCores := probe.logicalCores
     hostCpuPercent := reading.hostCpuPercent
     usedMemoryBytes := reading.usedMemoryBytes
     totalMemoryBytes := reading.totalMemoryBytes
     visibleProcessCount := reading.visibleProcessCount
     diskReadBytesPerSec := bytesPerSec (readTotal - probe.lastDiskReadTotal) elapsedMs
     diskWriteBytesPerSec := bytesPerSec (writeTotal - probe.lastDiskWriteTotal) elapsedMs
     processes := reading.processes
     cpuReady := readiness
     ioReady := readiness
     ioQuality := probe.ioQuality },
   { probe with
     refreshCount
     lastRefreshMs := atMs
     lastDiskReadTotal := readTotal
     lastDiskWriteTotal := writeTotal })

end SysinfoProbe

/-! ## Histories -/

def maxHistorySamplesPerSession : ℕ := 900

def activeRefreshIntervalMs : ℤ := 1000

def idleRefreshIntervalMs : ℤ := 5000

/-- The samples of a session, the oldest first. -/
structure SessionHistory where
  samples : List MetricSample
  bounded : samples.length ≤ maxHistorySamplesPerSession

namespace SessionHistory

def new : SessionHistory where
  samples := []
  bounded := Nat.zero_le _

/-- The oldest sample makes room when the history is full. -/
def push (history : SessionHistory) (sample : MetricSample) : SessionHistory where
  samples :=
    (if maxHistorySamplesPerSession ≤ history.samples.length then history.samples.tail
      else history.samples) ++ [sample]
  bounded := by
    have hbounded := history.bounded
    have hpositive : 0 < maxHistorySamplesPerSession := by decide
    rw [List.length_append, List.length_singleton]
    split_ifs with hfull
    · rw [List.length_tail]
      omega
    · omega

def latest (history : SessionHistory) : Option MetricSample :=
  history.samples.getLast?

end SessionHistory

/-- Push into the history of a session, which is new if there is none. -/
def pushSample (histories : Dict String SessionHistory) (sessionId : String)
    (sample : MetricSample) : Dict String SessionHistory :=
  histories.insert sessionId (((histories.lookup sessionId).getD .new).push sample)

/-! ## The sampler -/

inductive MetricsError where
  | tooManyRoots (max : ℕ)
  deriving DecidableEq

/-- The sessions that are sampled, with their histories. -/
structure MetricsSampler where
  probe : SysinfoProbe
  sessions : List RegisteredSession := []
  histories : Dict String SessionHistory := ∅
  latest : Option MetricsFrame := none
  lastRefreshMs : ℤ := 0
  refreshCount : ℕ := 0
  activeSessions : ℕ := 0
  attentionSessions : ℕ := 0

/-- The sample of a session from the metrics of its process tree. -/
def treeToSample (fp : F64Arithmetic) (atMs : ℤ) (logicalCores : ℕ) (tree : TreeMetrics) :
    MetricSample where
  atMs
  cpuCorePercent := tree.cpuCorePercent
  cpuHostPercent := fp.hostPercent tree.cpuCorePercent logicalCores
  rssBytes := tree.rssBytes
  runtimeMs := tree.runtimeMs
  processCount := tree.processCount
  readBytesPerSec := tree.readBytesPerSec
  writeBytesPerSec := tree.writeBytesPerSec
  quality := tree.quality

namespace MetricsSampler

def new (probe : SysinfoProbe) : MetricsSampler where
  probe

/-- Forget a session, its history and its part of the last frame. -/
def unregisterSession (s : MetricsSampler) (sessionId : String) : MetricsSampler :=
  { s with
    sessions := s.sessions.filter fun session => session.sessionId ≠ sessionId
    histories := s.histories.erase sessionId
    latest := s.latest.map fun frame => { frame with agents := frame.agents.erase sessionId } }

/-- A session that is known is registered anew. -/
def registerSession (s : MetricsSampler) (session : RegisteredSession) :
    Except MetricsError Unit × MetricsSampler :=
  let s := if s.sessions.any (·.sessionId = session.sessionId) then
    s.unregisterSession session.sessionId else s
  if maxActiveRoots ≤ s.sessions.length then (.error (.tooManyRoots maxActiveRoots), s)
  else (.ok (), { s with
    sessions := s.sessions ++ [session]
    histories := s.histories.insert session.sessionId
      ((s.histories.lookup session.sessionId).getD .new) })

def setSessionCounts (s : MetricsSampler) (activeSessions attentionSessions : ℕ) :
    MetricsSampler :=
  { s with activeSessions, attentionSessions }

/-- Sampling is slower without sessions. -/
def refreshIntervalMs (s : MetricsSampler) : ℤ :=
  if s.sessions.isEmpty then idleRefreshIntervalMs else activeRefreshIntervalMs

/-- Both times are readings of the clock, which are not negative, so that their difference is an
`i64`. -/
def shouldRefresh (s : MetricsSampler) (atMs : ℤ) : Bool :=
  s.lastRefreshMs = 0 ∨ s.refreshIntervalMs ≤ max (atMs - s.lastRefreshMs) 0

def refresh (fp : F64Arithmetic) (s : MetricsSampler) (atMs : ℤ) (reading : Reading) :
    MetricsFrame × MetricsSampler :=
  let (snapshot, probe) := s.probe.refresh atMs reading
  let trees := (computeSessionMetrics fp s.sessions snapshot.processes snapshot.elapsedMs atMs
    snapshot.cpuReady snapshot.ioReady snapshot.ioQuality).1
  let agents := trees.mapValues (treeToSample fp atMs snapshot.logicalCores)
  let frame : MetricsFrame :=
    { host := snapshot.hostSample
      aggregate := computeAggregate fp trees atMs snapshot.logicalCores s.activeSessions
        s.attentionSessions snapshot.ioQuality
      agents }
  (frame, { s with
    probe
    histories := agents.entries.foldl (fun histories e => pushSample histories e.1 e.2) s.histories
    latest := some frame
    lastRefreshMs := atMs
    refreshCount := min (s.refreshCount + 1) (2 ^ 64 - 1) })

/-- Refresh when the interval has passed. -/
def tick (fp : F64Arithmetic) (s : MetricsSampler) (atMs : ℤ) (reading : Reading) :
    Option MetricsFrame × MetricsSampler :=
  if s.shouldRefresh atMs then ((s.refresh fp atMs reading).map some id) else (none, s)

def sessionHistory (s : MetricsSampler) (sessionId : String) : List MetricSample :=
  ((s.histories.lookup sessionId).map (·.samples)).getD []

def sessionLatest (s : MetricsSampler) (sessionId : String) : Option MetricSample :=
  (s.histories.lookup sessionId).bind (·.latest)

/-- Forget all samples and keep the sessions. -/
def clearHistory (s : MetricsSampler) : MetricsSampler :=
  { s with
    histories := s.histories.mapValues fun _ => .new
    latest := none }

end MetricsSampler

/-! ## Calls and their answers -/

/-- The calls of the sampler. -/
inductive SamplerCall where
  | registerSession (session : RegisteredSession)
  | unregisterSession (sessionId : String)
  | setSessionCounts (activeSessions attentionSessions : ℕ)
  | tick (atMs : ℤ) (reading : Reading)
  | clearHistory

/-- What a call returns. -/
inductive SamplerAnswer where
  | done
  | rejected (e : MetricsError)
  | frame (frame : MetricsFrame)
  | notDue

def MetricsSampler.call (fp : F64Arithmetic) (s : MetricsSampler) :
    SamplerCall → SamplerAnswer × MetricsSampler
  | .registerSession session => match s.registerSession session with
    | (.ok (), s') => (.done, s')
    | (.error e, s') => (.rejected e, s')
  | .unregisterSession sessionId => (.done, s.unregisterSession sessionId)
  | .setSessionCounts activeSessions attentionSessions =>
    (.done, s.setSessionCounts activeSessions attentionSessions)
  | .tick atMs reading => match s.tick fp atMs reading with
    | (some frame, s') => (.frame frame, s')
    | (none, s') => (.notDue, s')
  | .clearHistory => (.done, s.clearHistory)

/-- All samples of each registered session. -/
abbrev SampleLog := String → Option (List MetricSample)

/-- What a caller may conclude from an answer. -/
def SampleLog.answered (log : SampleLog) : SamplerCall → SamplerAnswer → SampleLog
  | .registerSession session, .done => Function.update log session.sessionId (some [])
  | .unregisterSession sessionId, .done => Function.update log sessionId none
  | .tick _ _, .frame frame => fun id => (log id).map (· ++ (frame.agents.lookup id).toList)
  | .clearHistory, .done => fun id => (log id).map fun _ => []
  | _, _ => log

/-- The sampler with a log of the samples it has returned. -/
structure Observed where
  sampler : MetricsSampler
  log : SampleLog

namespace Observed

def start (probe : SysinfoProbe) : Observed where
  sampler := .new probe
  log := fun _ => none

def after (fp : F64Arithmetic) (o : Observed) (call : SamplerCall) : Observed where
  sampler := (o.sampler.call fp call).2
  log := o.log.answered call (o.sampler.call fp call).1

end Observed

/-- After these calls. -/
def observed (fp : F64Arithmetic) (probe : SysinfoProbe) (calls : List SamplerCall) : Observed :=
  calls.foldl (Observed.after fp) (.start probe)

/-! ## What the sampler keeps -/

/-- A refresh and the next. -/
def Apart (earlier later : MetricSample) : Prop :=
  earlier.atMs = 0 ∨ earlier.atMs + activeRefreshIntervalMs ≤ later.atMs

/-- The sample of a session in the latest frame. -/
def MetricsSampler.shown (s : MetricsSampler) (sessionId : String) : Option MetricSample :=
  s.latest.bind fun frame => frame.agents.lookup sessionId

/-- The sampler keeps the end of what the log has. -/
structure Kept (o : Observed) : Prop where
  ids : (o.sampler.sessions.map (·.sessionId)).Nodup
  bounded : o.sampler.sessions.length ≤ maxActiveRoots
  registered : ∀ id, (o.log id).isSome ↔ id ∈ o.sampler.sessions.map (·.sessionId)
  history : ∀ id, (o.sampler.histories.lookup id).map (·.samples) =
    (o.log id).map (·.rtake maxHistorySamplesPerSession)
  latest : ∀ id, o.sampler.shown id = (o.log id).bind List.getLast?
  newest : ∀ id samples, o.log id = some samples → ∀ sample ∈ samples.getLast?,
    sample.atMs = o.sampler.lastRefreshMs
  apart : ∀ id samples, o.log id = some samples → samples.IsChain Apart
  refreshCount : o.sampler.probe.refreshCount = o.sampler.refreshCount

/-- A frame that a sampler returns. -/
structure Shows (s : MetricsSampler) (atMs : ℤ) (frame : MetricsFrame) : Prop where
  due : s.lastRefreshMs = 0 ∨ s.refreshIntervalMs ≤ atMs - s.lastRefreshMs
  agents : ∀ id, (frame.agents.lookup id).isSome ↔ id ∈ s.sessions.map (·.sessionId)
  times : frame.host.atMs = atMs ∧ frame.aggregate.atMs = atMs ∧
    ∀ id sample, frame.agents.lookup id = some sample → sample.atMs = atMs
  cpu : ∀ id sample, frame.agents.lookup id = some sample → sample.quality.cpu ≠ .unavailable →
    (sample.quality.cpu = .warmingUp ↔ s.refreshCount = 0)
  disks : s.refreshCount = 0 →
    frame.host.diskReadBytesPerSec = 0 ∧ frame.host.diskWriteBytesPerSec = 0

theorem push_rtake {history : SessionHistory} {samples : List MetricSample}
    (h : history.samples = samples.rtake maxHistorySamplesPerSession) (sample : MetricSample) :
    (history.push sample).samples =
      (samples ++ [sample]).rtake maxHistorySamplesPerSession := by
  have hpositive : 0 < maxHistorySamplesPerSession := by decide
  unfold SessionHistory.push
  dsimp only
  rw [h]
  generalize maxHistorySamplesPerSession = n at hpositive
  unfold List.rtake
  have hlength : (samples ++ [sample]).length - n = samples.length + 1 - n := by
    rw [List.length_append, List.length_singleton]
  rw [hlength, List.drop_append_of_le_length (by omega), List.length_drop]
  split_ifs with hfull
  · have hnext : samples.length - n + 1 = samples.length + 1 - n := by omega
    rw [List.tail_drop, hnext]
  · have hall : samples.length - n = samples.length + 1 - n := by omega
    rw [hall]

theorem lookup_pushSamples {es : List (Sigma fun _ : String => MetricSample)}
    (hnodup : es.NodupKeys) (histories : Dict String SessionHistory) (id : String) :
    (es.foldl (fun histories e => pushSample histories e.1 e.2) histories).lookup id =
      (es.dlookup id).elim (histories.lookup id) fun sample =>
        some (((histories.lookup id).getD .new).push sample) := by
  induction es generalizing histories with
  | nil => rfl
  | cons e es ih =>
    obtain ⟨hfresh, hnodup⟩ := List.nodupKeys_cons.1 hnodup
    rw [List.foldl_cons, ih hnodup]
    unfold pushSample
    by_cases hid : id = e.1
    · subst hid
      rw [List.dlookup_eq_none.2 hfresh, List.dlookup_cons_eq, AList.lookup_insert]
      rfl
    · rw [List.dlookup_cons_ne _ _ hid, AList.lookup_insert_ne hid]

/-- Values inserted one after another. -/
theorem lookup_foldl_insert_by {α β γ : Type*} [DecidableEq α] (key : γ → α) (value : γ → β)
    (xs : List γ) (m : Dict α β) (k : α) :
    (k ∉ xs.map key →
      (xs.foldl (fun m x => m.insert (key x) (value x)) m).lookup k = m.lookup k) ∧
    (k ∈ xs.map key → ∃ x ∈ xs,
      (xs.foldl (fun m x => m.insert (key x) (value x)) m).lookup k = some (value x)) := by
  induction xs generalizing m with
  | nil => exact ⟨fun _ => rfl, fun h => absurd h List.not_mem_nil⟩
  | cons x xs ih =>
    obtain ⟨habsent, hpresent⟩ := ih (m.insert (key x) (value x))
    rw [List.foldl_cons, List.map_cons, List.mem_cons]
    by_cases hlater : k ∈ xs.map key
    · obtain ⟨y, hy, hvalue⟩ := hpresent hlater
      exact ⟨fun h => absurd (.inr hlater) h, fun _ => ⟨y, List.mem_cons_of_mem x hy, hvalue⟩⟩
    · refine ⟨fun h => ?_, fun h => ⟨x, List.mem_cons_self, ?_⟩⟩
      · rw [habsent hlater, AList.lookup_insert_ne fun heq => h (.inl heq)]
      · rw [habsent hlater, h.resolve_right hlater, AList.lookup_insert]

section Trees

variable {fp : F64Arithmetic} {sessions : List RegisteredSession} {processes : Measurements}
  {elapsedMs : ℕ} {atMs : ℤ} {cpuReady ioReady : CounterReadiness} {io : IoQuality}

variable (fp) in
theorem lookup_trees (id : String) :
    (id ∉ sessions.map (·.sessionId) → (computeSessionMetrics fp sessions processes elapsedMs atMs
      cpuReady ioReady io).1.lookup id = none) ∧
    (id ∈ sessions.map (·.sessionId) → ∃ session i, (computeSessionMetrics fp sessions processes
      elapsedMs atMs cpuReady ioReady io).1.lookup id = some (sessionMetrics fp processes
        (assignProcessOwners sessions processes.snapshot) elapsedMs atMs cpuReady ioReady io
        session i)) := by
  have hids : sessions.zipIdx.map (fun s => s.1.sessionId) = sessions.map (·.sessionId) := by
    have h := congrArg (List.map fun s : RegisteredSession => s.sessionId)
      (List.zipIdx_map_fst 0 sessions)
    rw [List.map_map] at h
    exact h
  have hlookup := lookup_foldl_insert_by (fun s : RegisteredSession × ℕ => s.1.sessionId)
    (fun s => sessionMetrics fp processes (assignProcessOwners sessions processes.snapshot)
      elapsedMs atMs cpuReady ioReady io s.1 s.2) sessions.zipIdx ∅ id
  rw [hids] at hlookup
  refine ⟨fun h => hlookup.1 h, fun h => ?_⟩
  obtain ⟨s, -, hs⟩ := hlookup.2 h
  exact ⟨s.1, s.2, hs⟩

theorem sessionMetrics_warmingUp {owners : List (ℕ × ℕ)} {session : RegisteredSession} {i : ℕ}
    (h : (sessionMetrics fp processes owners elapsedMs atMs cpuReady ioReady io session
      i).quality.cpu ≠ .unavailable) :
    (sessionMetrics fp processes owners elapsedMs atMs cpuReady ioReady io session
      i).quality.cpu = .warmingUp ↔ cpuReady = .warmingUp := by
  have hcpu : (sessionMetrics fp processes owners elapsedMs atMs cpuReady ioReady io session
      i).quality.cpu =
        if verifyRoot session.root processes.snapshot ≠ .valid then .unavailable
        else if cpuReady = .warmingUp then .warmingUp
        else .available := rfl
  rw [hcpu] at h ⊢
  have hroot : ¬ verifyRoot session.root processes.snapshot ≠ .valid := fun hroot =>
    h (if_pos hroot)
  rw [if_neg hroot]
  by_cases hready : cpuReady = .warmingUp
  · exact ⟨fun _ => hready, fun _ => if_pos hready⟩
  · rw [if_neg hready]
    exact ⟨fun h => absurd h (by decide), fun h => absurd h hready⟩

end Trees

/-! ## What each call does -/

variable {fp : F64Arithmetic} {o : Observed}

/-- What a registration leaves. -/
structure Registered (s : MetricsSampler) (session : RegisteredSession) (s' : MetricsSampler) :
    Prop where
  sessions : s'.sessions =
    (s.sessions.filter fun other => other.sessionId ≠ session.sessionId) ++ [session]
  bounded : s'.sessions.length ≤ maxActiveRoots
  histories : ∀ id, s'.histories.lookup id =
    if id = session.sessionId then some .new else s.histories.lookup id
  shown : ∀ id, s'.shown id = if id = session.sessionId then none else s.shown id
  others : s'.lastRefreshMs = s.lastRefreshMs ∧ s'.probe = s.probe ∧
    s'.refreshCount = s.refreshCount

theorem shown_unregisterSession (s : MetricsSampler) (id k : String) :
    (s.unregisterSession id).shown k = if k = id then none else s.shown k := by
  unfold MetricsSampler.shown MetricsSampler.unregisterSession
  dsimp only
  cases s.latest with
  | none => rw [Option.map_none, Option.bind_none, ite_self]
  | some frame => exact Dict.lookup_erase_ite id k frame.agents

/-! ## A refresh -/

section Refresh

variable (fp : F64Arithmetic) (s : MetricsSampler) (atMs : ℤ) (reading : Reading)

theorem cpuReady_refresh (probe : SysinfoProbe) :
    (probe.refresh atMs reading).1.cpuReady = .warmingUp ↔ probe.refreshCount = 0 := by
  show (if 2 ≤ min (probe.refreshCount + 1) (2 ^ 64 - 1) then CounterReadiness.ready
    else .warmingUp) = .warmingUp ↔ _
  split_ifs with hcount
  · exact ⟨fun h => absurd h (by decide), fun h => by omega⟩
  · exact ⟨fun _ => by omega, fun _ => rfl⟩

/-- The samples of a frame. -/
theorem lookup_agents (id : String) :
    (id ∉ s.sessions.map (·.sessionId) →
      (s.refresh fp atMs reading).1.agents.lookup id = none) ∧
    (id ∈ s.sessions.map (·.sessionId) → ∃ tree : TreeMetrics,
      (s.refresh fp atMs reading).1.agents.lookup id =
        some (treeToSample fp atMs s.probe.logicalCores tree) ∧
      (tree.quality.cpu ≠ .unavailable → (tree.quality.cpu = .warmingUp ↔
        (s.probe.refresh atMs reading).1.cpuReady = .warmingUp))) := by
  set snapshot := (s.probe.refresh atMs reading).1
  have hagents : (s.refresh fp atMs reading).1.agents =
      (computeSessionMetrics fp s.sessions snapshot.processes snapshot.elapsedMs atMs
        snapshot.cpuReady snapshot.ioReady snapshot.ioQuality).1.mapValues
        (treeToSample fp atMs s.probe.logicalCores) := rfl
  rw [hagents, Dict.lookup_mapValues]
  refine ⟨fun h => ?_, fun h => ?_⟩
  · rw [(lookup_trees fp id).1 h]
    rfl
  · obtain ⟨session, i, hlookup⟩ := (lookup_trees fp id).2 h
    exact ⟨_, by rw [hlookup]; rfl, sessionMetrics_warmingUp⟩

end Refresh

namespace Kept

theorem absent (h : Kept o) {id : String}
    (hid : id ∉ o.sampler.sessions.map (·.sessionId)) : o.log id = none := by
  rw [← Option.not_isSome_iff_eq_none, h.registered id]
  exact hid

theorem absent_history (h : Kept o) {id : String}
    (hid : id ∉ o.sampler.sessions.map (·.sessionId)) : o.sampler.histories.lookup id = none := by
  have hhistory := h.history id
  rw [h.absent hid, Option.map_none] at hhistory
  exact Option.map_eq_none_iff.1 hhistory

/-- A registration fails only if 64 other sessions are registered, and then changes nothing. -/
theorem registerSession (h : Kept o) (session : RegisteredSession) :
    (∃ s', o.sampler.registerSession session = (.ok (), s') ∧
      Registered o.sampler session s') ∨
    (o.sampler.registerSession session = (.error (.tooManyRoots maxActiveRoots), o.sampler) ∧
      session.sessionId ∉ o.sampler.sessions.map (·.sessionId) ∧
      o.sampler.sessions.length = maxActiveRoots) := by
  unfold MetricsSampler.registerSession
  by_cases hmem : session.sessionId ∈ o.sampler.sessions.map (·.sessionId)
  · obtain ⟨other, hother, hid⟩ := List.mem_map.1 hmem
    have hany : (o.sampler.sessions.any (·.sessionId = session.sessionId)) = true :=
      List.any_eq_true.2 ⟨other, hother, decide_eq_true hid⟩
    have hshorter : (o.sampler.sessions.filter fun t => t.sessionId ≠ session.sessionId).length <
        o.sampler.sessions.length := by
      refine List.length_filter_lt_length_iff_exists.2 ⟨other, hother, ?_⟩
      simpa using hid
    have hbounded := h.bounded
    have hroom : ¬ maxActiveRoots ≤
        (o.sampler.sessions.filter fun t => t.sessionId ≠ session.sessionId).length := by omega
    rw [if_pos hany]
    refine .inl ⟨_, if_neg hroom, rfl, ?_, fun id => ?_, fun id => ?_, rfl, rfl, rfl⟩
    · dsimp only
      rw [List.length_append, List.length_singleton]
      exact Nat.not_le.1 hroom
    · dsimp only [MetricsSampler.unregisterSession]
      rw [Dict.lookup_insert_ite, Dict.lookup_erase_ite, Dict.lookup_erase_ite, if_pos rfl]
      split_ifs <;> rfl
    · exact shown_unregisterSession o.sampler session.sessionId id
  · have hany : ¬ (o.sampler.sessions.any (·.sessionId = session.sessionId)) = true := by
      intro hany
      obtain ⟨other, hother, hid⟩ := List.any_eq_true.1 hany
      exact hmem (List.mem_map.2 ⟨other, hother, of_decide_eq_true hid⟩)
    rw [if_neg hany]
    by_cases hfull : maxActiveRoots ≤ o.sampler.sessions.length
    · exact .inr ⟨if_pos hfull, hmem, Nat.le_antisymm h.bounded hfull⟩
    · refine .inl ⟨_, if_neg hfull, ?_, ?_, fun id => ?_, fun id => ?_, rfl, rfl, rfl⟩
      · dsimp only
        rw [List.filter_eq_self.2]
        intro other hother
        exact decide_eq_true fun hid => hmem (List.mem_map.2 ⟨other, hother, hid⟩)
      · dsimp only
        rw [List.length_append, List.length_singleton]
        exact Nat.not_le.1 hfull
      · dsimp only
        rw [Dict.lookup_insert_ite, h.absent_history hmem]
        rfl
      · show o.sampler.shown id = _
        split_ifs with hid
        · rw [h.latest, hid, h.absent hmem]
          rfl
        · rfl

theorem register (h : Kept o) {session : RegisteredSession} {s' : MetricsSampler}
    (hs : Registered o.sampler session s') :
    Kept ⟨s', Function.update o.log session.sessionId (some [])⟩ := by
  have hids : s'.sessions.map (·.sessionId) =
      (o.sampler.sessions.map (·.sessionId)).filter (· ≠ session.sessionId) ++
        [session.sessionId] := by
    rw [hs.sessions, List.map_append, List.filter_map]
    rfl
  refine ⟨?_, hs.bounded, fun id => ?_, fun id => ?_, fun id => ?_, fun id samples hlog => ?_,
    fun id samples hlog => ?_, ?_⟩
  · dsimp only
    rw [hids]
    refine List.nodup_append.2 ⟨h.ids.filter _, List.nodup_singleton _, ?_⟩
    intro id hid k hk
    rw [List.mem_singleton.1 hk]
    exact of_decide_eq_true (List.mem_filter.1 hid).2
  · dsimp only
    rw [hids, List.mem_append, List.mem_singleton, List.mem_filter, Function.update_apply]
    split_ifs with hid
    · exact ⟨fun _ => .inr hid, fun _ => rfl⟩
    · rw [h.registered]
      exact ⟨fun hmem => .inl ⟨hmem, decide_eq_true hid⟩,
        fun hmem => (hmem.resolve_right hid).1⟩
  · dsimp only
    rw [hs.histories, Function.update_apply]
    split_ifs
    · rfl
    · exact h.history id
  · dsimp only
    rw [hs.shown, Function.update_apply]
    split_ifs
    · rfl
    · exact h.latest id
  · dsimp only at hlog ⊢
    rw [Function.update_apply] at hlog
    split_ifs at hlog with hid
    · rw [← Option.some.inj hlog]
      exact fun sample hsample => by cases hsample
    · rw [hs.others.1]
      exact h.newest id samples hlog
  · dsimp only at hlog
    rw [Function.update_apply] at hlog
    split_ifs at hlog with hid
    · rw [← Option.some.inj hlog]
      exact .nil
    · exact h.apart id samples hlog
  · dsimp only
    rw [hs.others.2.1, hs.others.2.2]
    exact h.refreshCount

theorem unregister (h : Kept o) (sessionId : String) :
    Kept ⟨o.sampler.unregisterSession sessionId, Function.update o.log sessionId none⟩ := by
  refine ⟨h.ids.sublist (List.filter_sublist.map _),
    (List.length_filter_le _ _).trans h.bounded, fun id => ?_, fun id => ?_, fun id => ?_,
    fun id samples hlog => ?_, fun id samples hlog => ?_, h.refreshCount⟩
  · have hids : (o.sampler.unregisterSession sessionId).sessions.map (·.sessionId) =
        (o.sampler.sessions.map (·.sessionId)).filter (· ≠ sessionId) := by
      rw [List.filter_map]
      rfl
    dsimp only
    rw [hids, List.mem_filter, Function.update_apply]
    split_ifs with hid
    · exact ⟨fun h => absurd h (by decide), fun h => absurd hid (of_decide_eq_true h.2)⟩
    · rw [h.registered]
      exact ⟨fun hmem => ⟨hmem, decide_eq_true hid⟩, fun hmem => hmem.1⟩
  · dsimp only [MetricsSampler.unregisterSession]
    rw [Dict.lookup_erase_ite, Function.update_apply]
    split_ifs
    · rfl
    · exact h.history id
  · dsimp only
    rw [shown_unregisterSession, Function.update_apply]
    split_ifs
    · rfl
    · exact h.latest id
  · dsimp only at hlog
    rw [Function.update_apply] at hlog
    split_ifs at hlog
    exact h.newest id samples hlog
  · dsimp only at hlog
    rw [Function.update_apply] at hlog
    split_ifs at hlog
    exact h.apart id samples hlog

theorem clear (h : Kept o) :
    Kept ⟨o.sampler.clearHistory, fun id => (o.log id).map fun _ => []⟩ := by
  refine ⟨h.ids, h.bounded, fun id => ?_, fun id => ?_, fun id => ?_,
    fun id samples hlog => ?_, fun id samples hlog => ?_, h.refreshCount⟩
  · dsimp only
    rw [Option.isSome_map]
    exact h.registered id
  · have hhistory := h.history id
    dsimp only [MetricsSampler.clearHistory]
    rw [Dict.lookup_mapValues]
    cases hlog : o.log id with
    | none =>
      rw [hlog, Option.map_none, Option.map_eq_none_iff] at hhistory
      rw [hhistory]
      rfl
    | some samples =>
      rw [hlog, Option.map_some, Option.map_eq_some_iff] at hhistory
      obtain ⟨history, hlookup, -⟩ := hhistory
      rw [hlookup, Option.map_some, Option.map_some, Option.map_some, Option.map_some,
        List.rtake_nil]
      rfl
  · dsimp only
    show none = _
    cases o.log id <;> rfl
  · obtain ⟨-, -, rfl⟩ := Option.map_eq_some_iff.1 hlog
    exact fun sample hsample => by cases hsample
  · obtain ⟨-, -, rfl⟩ := Option.map_eq_some_iff.1 hlog
    exact .nil

variable (fp) in
/-- What a refresh that is due shows. -/
theorem shows (h : Kept o) {atMs : ℤ} (hdue : o.sampler.shouldRefresh atMs = true)
    (reading : Reading) : Shows o.sampler atMs (o.sampler.refresh fp atMs reading).1 := by
  have hready := cpuReady_refresh atMs reading o.sampler.probe
  rw [h.refreshCount] at hready
  have hagents := lookup_agents fp o.sampler atMs reading
  refine ⟨?_, fun id => ⟨fun hsome => ?_, fun hmem => ?_⟩, ⟨rfl, rfl, fun id sample hsample => ?_⟩,
    fun id sample hsample hcpu => ?_, fun hfirst => ?_⟩
  · have hinterval : 0 < o.sampler.refreshIntervalMs := by
      unfold MetricsSampler.refreshIntervalMs
      split_ifs <;> decide
    refine (of_decide_eq_true hdue).imp_right fun hlate => ?_
    omega
  · by_contra hmem
    rw [(hagents id).1 hmem] at hsome
    cases hsome
  · obtain ⟨tree, hlookup, -⟩ := (hagents id).2 hmem
    rw [hlookup]
    rfl
  · by_cases hmem : id ∈ o.sampler.sessions.map (·.sessionId)
    · obtain ⟨tree, hlookup, -⟩ := (hagents id).2 hmem
      rw [hlookup] at hsample
      rw [← Option.some.inj hsample]
      rfl
    · rw [(hagents id).1 hmem] at hsample
      cases hsample
  · by_cases hmem : id ∈ o.sampler.sessions.map (·.sessionId)
    · obtain ⟨tree, hlookup, htree⟩ := (hagents id).2 hmem
      rw [hlookup] at hsample
      rw [← Option.some.inj hsample] at hcpu ⊢
      exact (htree hcpu).trans hready
    · rw [(hagents id).1 hmem] at hsample
      cases hsample
  · have hcold : (o.sampler.probe.refresh atMs reading).1.ioReady ≠ .ready := by
      have hwarming : (o.sampler.probe.refresh atMs reading).1.ioReady = .warmingUp :=
        hready.2 hfirst
      rw [hwarming]
      decide
    exact ⟨if_neg hcold, if_neg hcold⟩

/-- After a refresh that is due each history ends with the sample of the frame. -/
theorem refresh (h : Kept o) {atMs : ℤ} (hdue : o.sampler.shouldRefresh atMs = true)
    (reading : Reading) :
    Kept ⟨(o.sampler.refresh fp atMs reading).2, fun id => (o.log id).map
      (· ++ ((o.sampler.refresh fp atMs reading).1.agents.lookup id).toList)⟩ := by
  have hshows := h.shows fp hdue reading
  generalize hframe : (o.sampler.refresh fp atMs reading).1 = frame at hshows ⊢
  have hlogged : ∀ id, (o.log id).isSome ↔ (frame.agents.lookup id).isSome := fun id =>
    (h.registered id).trans (hshows.agents id).symm
  have hcases : ∀ id, (o.log id = none ∧ frame.agents.lookup id = none) ∨
      ∃ samples sample, o.log id = some samples ∧ frame.agents.lookup id = some sample := by
    intro id
    have hboth := hlogged id
    cases hlog : o.log id with
    | none =>
      rw [hlog] at hboth
      exact .inl ⟨rfl, Option.not_isSome_iff_eq_none.1 fun hsome => by cases hboth.2 hsome⟩
    | some samples =>
      rw [hlog] at hboth
      obtain ⟨sample, hsample⟩ := Option.isSome_iff_exists.1 (hboth.1 rfl)
      exact .inr ⟨samples, sample, rfl, hsample⟩
  have hgrown : ∀ id samples', (o.log id).map (· ++ (frame.agents.lookup id).toList) =
      some samples' → ∃ samples sample, o.log id = some samples ∧
        frame.agents.lookup id = some sample ∧ samples' = samples ++ [sample] := by
    intro id samples' hsome
    rcases hcases id with ⟨hlog, -⟩ | ⟨samples, sample, hlog, hsample⟩
    · rw [hlog] at hsome
      cases hsome
    · rw [hlog, hsample] at hsome
      exact ⟨samples, sample, hlog, hsample, (Option.some.inj hsome).symm⟩
  have hhistories : ∀ id, (o.sampler.refresh fp atMs reading).2.histories.lookup id =
      (frame.agents.lookup id).elim (o.sampler.histories.lookup id) fun sample =>
        some (((o.sampler.histories.lookup id).getD .new).push sample) := by
    intro id
    rw [← hframe]
    exact lookup_pushSamples
      (o.sampler.refresh fp atMs reading).1.agents.nodupKeys o.sampler.histories id
  have hlatest : (o.sampler.refresh fp atMs reading).2.latest = some frame := by
    rw [← hframe]
    rfl
  refine ⟨h.ids, h.bounded, fun id => ?_, fun id => ?_, fun id => ?_,
    fun id samples' hlog' => ?_, fun id samples' hlog' => ?_, ?_⟩
  · dsimp only
    rw [Option.isSome_map]
    exact h.registered id
  · dsimp only
    rw [hhistories id]
    have hhistory := h.history id
    rcases hcases id with ⟨hlog, hsample⟩ | ⟨samples, sample, hlog, hsample⟩
    · rw [hlog, hsample]
      rw [hlog] at hhistory
      exact hhistory
    · rw [hlog, Option.map_some, Option.map_eq_some_iff] at hhistory
      obtain ⟨history, hlookup, hsamples⟩ := hhistory
      rw [hlog, hsample, hlookup]
      exact congrArg some (push_rtake hsamples sample)
  · dsimp only
    unfold MetricsSampler.shown
    rw [hlatest, Option.bind_some]
    rcases hcases id with ⟨hlog, hsample⟩ | ⟨samples, sample, hlog, hsample⟩
    · rw [hlog, hsample]
      rfl
    · rw [hlog, hsample]
      exact List.getLast?_concat.symm
  · obtain ⟨samples, sample, hlog, hsample, rfl⟩ := hgrown id samples' hlog'
    intro last hlast
    rw [List.getLast?_concat] at hlast
    rw [← Option.some.inj hlast]
    exact hshows.times.2.2 id sample hsample
  · obtain ⟨samples, sample, hlog, hsample, rfl⟩ := hgrown id samples' hlog'
    refine List.isChain_append.2 ⟨h.apart id samples hlog, .singleton _, ?_⟩
    intro last hlast next hnext
    rw [← Option.some.inj hnext]
    have hbusy : o.sampler.refreshIntervalMs = activeRefreshIntervalMs := by
      refine if_neg fun hempty => ?_
      have hmem := (h.registered id).1 (by rw [hlog]; rfl)
      rw [List.isEmpty_iff.1 hempty] at hmem
      cases hmem
    have hdue' := hshows.due
    have hlastMs := h.newest id samples hlog last hlast
    have hnextMs := hshows.times.2.2 id sample hsample
    rw [hbusy] at hdue'
    unfold Apart
    omega
  · show min (o.sampler.probe.refreshCount + 1) _ = min (o.sampler.refreshCount + 1) _
    rw [h.refreshCount]

theorem start (cpus : ℕ) (io : IoQuality) (disks : List (ℕ × ℕ)) :
    Kept (.start (.new cpus io disks)) where
  ids := .nil
  bounded := Nat.zero_le _
  registered _ := ⟨fun h => absurd h Bool.false_ne_true, fun h => by cases h⟩
  history _ := rfl
  latest _ := rfl
  newest _ _ h := by cases h
  apart _ _ h := by cases h
  refreshCount := rfl

theorem after (h : Kept o) (call : SamplerCall) : Kept (o.after fp call) := by
  cases call with
  | registerSession session =>
    rcases h.registerSession session with ⟨s', hs, hregistered⟩ | ⟨hs, -, -⟩
    · have hcall : o.sampler.call fp (.registerSession session) = (.done, s') := by
        unfold MetricsSampler.call
        dsimp only
        rw [hs]
      unfold Observed.after
      rw [hcall]
      exact h.register hregistered
    · have hcall : o.sampler.call fp (.registerSession session) =
          (.rejected (.tooManyRoots maxActiveRoots), o.sampler) := by
        unfold MetricsSampler.call
        dsimp only
        rw [hs]
      unfold Observed.after
      rw [hcall]
      exact h
  | unregisterSession sessionId => exact h.unregister sessionId
  | setSessionCounts activeSessions attentionSessions =>
    exact ⟨h.ids, h.bounded, h.registered, h.history, h.latest, h.newest, h.apart,
      h.refreshCount⟩
  | tick atMs reading =>
    unfold Observed.after MetricsSampler.call MetricsSampler.tick
    dsimp only
    by_cases hdue : o.sampler.shouldRefresh atMs = true
    · rw [if_pos hdue]
      exact h.refresh hdue reading
    · rw [if_neg hdue]
      exact h
  | clearHistory => exact h.clear

theorem observed (fp : F64Arithmetic) (cpus : ℕ) (io : IoQuality) (disks : List (ℕ × ℕ))
    (calls : List SamplerCall) : Kept (observed fp (.new cpus io disks) calls) :=
  List.foldlRecOn calls _ (start cpus io disks) fun _ h call _ => h.after call

theorem sessionHistory (h : Kept o) (id : String) :
    o.sampler.sessionHistory id =
      ((o.log id).getD []).rtake maxHistorySamplesPerSession := by
  unfold MetricsSampler.sessionHistory
  rw [h.history]
  cases o.log id with
  | none => rw [Option.map_none, Option.getD_none, List.rtake_nil]
  | some samples => rw [Option.map_some, Option.getD_some, Option.getD_some]

/-- The newest sample of a history is in the latest frame. -/
theorem sessionLatest (h : Kept o) (id : String) :
    o.sampler.sessionLatest id = o.sampler.shown id := by
  have hhistory := h.history id
  rw [h.latest id]
  unfold MetricsSampler.sessionLatest
  cases hlog : o.log id with
  | none =>
    rw [hlog, Option.map_none, Option.map_eq_none_iff] at hhistory
    rw [hhistory]
    rfl
  | some samples =>
    rw [hlog, Option.map_some, Option.map_eq_some_iff] at hhistory
    obtain ⟨history, hlookup, hsamples⟩ := hhistory
    rw [hlookup, Option.bind_some, Option.bind_some]
    unfold SessionHistory.latest
    rw [hsamples, List.rtake, List.getLast?_drop]
    split_ifs with hshort
    · have hpositive : 0 < maxHistorySamplesPerSession := by decide
      have hlength : samples.length = 0 := by
        generalize maxHistorySamplesPerSession = n at hpositive hshort
        omega
      rw [List.eq_nil_of_length_eq_zero hlength]
      rfl
    · rfl

end Kept

/-! ## The roots of the host -/

/-! ## Every run -/

/-- Whatever is called in whatever order : the sampler keeps the end of what it has shown, turns a
session away only if 64 others are registered, and its frames show the registered sessions. -/
theorem sampler_run (fp : F64Arithmetic) (cpus : ℕ) (io : IoQuality) (disks : List (ℕ × ℕ))
    (calls : List SamplerCall) :
    let o := observed fp (.new cpus io disks) calls
    Kept o ∧
    (∀ id, o.sampler.sessionHistory id =
        ((o.log id).getD []).rtake maxHistorySamplesPerSession ∧
      o.sampler.sessionLatest id = o.sampler.shown id) ∧
    (∀ session, ((o.sampler.registerSession session).1 ≠ .ok () ↔
        session.sessionId ∉ o.sampler.sessions.map (·.sessionId) ∧
          o.sampler.sessions.length = maxActiveRoots) ∧
      ((o.sampler.registerSession session).1 ≠ .ok () →
        (o.sampler.registerSession session).2 = o.sampler)) ∧
    ∀ atMs reading, ∀ frame ∈ (o.sampler.tick fp atMs reading).1, Shows o.sampler atMs frame := by
  intro o
  have h : Kept o := .observed fp cpus io disks calls
  refine ⟨h, fun id => ⟨h.sessionHistory id, h.sessionLatest id⟩, fun session => ?_,
    fun atMs reading frame hframe => ?_⟩
  · rcases h.registerSession session with ⟨s', hs, hregistered⟩ | ⟨hs, hfull⟩
    · rw [hs]
      refine ⟨⟨fun hok => absurd rfl hok, fun ⟨habsent, hfull⟩ => ?_⟩, fun hok => absurd rfl hok⟩
      have hbounded := hregistered.bounded
      have hothers : (o.sampler.sessions.filter fun other =>
          other.sessionId ≠ session.sessionId) = o.sampler.sessions :=
        List.filter_eq_self.2 fun other hother =>
          decide_eq_true fun hid => habsent (List.mem_map.2 ⟨other, hother, hid⟩)
      rw [hregistered.sessions, hothers, List.length_append, List.length_singleton] at hbounded
      omega
    · rw [hs]
      exact ⟨⟨fun _ => hfull, fun _ hok => by cases hok⟩, fun _ => rfl⟩
  · unfold MetricsSampler.tick at hframe
    split_ifs at hframe with hdue
    · rw [← Option.some.inj hframe]
      exact h.shows fp hdue reading
    · cases hframe

end Metrics

end LlmNotch
