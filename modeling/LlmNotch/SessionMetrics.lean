import LlmNotch.Dict
import LlmNotch.ProcessGraph
import Mathlib.Algebra.Order.BigOperators.Group.List
import Mathlib.Algebra.GroupWithZero.Nat
import Mathlib.Algebra.Order.Group.Nat

/-!
# Metrics of sessions

Every process of a snapshot has at most one owner. `computeSessionMetrics` adds up for each
session what its processes use, and `computeAggregate` adds up the sessions whose root is live.
A session whose root is not live owns nothing, so nothing is lost by leaving it out.

`conserved_iff` : for distinct sessions, the counts and the resident memory of the sessions and of
the aggregate are those of the owned processes exactly if their number fits the 32 bits of a
count, as long as the memory fits 64 bits. The sums are those of fixed-width integers; the
arithmetic of binary64 is a parameter.
-/

namespace LlmNotch

namespace Metrics

/-! ## Measured processes -/

/-- A process with its counters; the totals since its start are not used here. -/
structure MeasuredNode extends ProcessNode where
  cpuUsagePercent : F64
  rssBytes : ℕ
  readBytesDelta : ℕ
  writeBytesDelta : ℕ
  ioAvailable : Bool

/-- The processes in the order of their identifiers. -/
structure Measurements where
  nodes : List MeasuredNode
  sorted : (nodes.map fun node => node.pid).Pairwise (· < ·)

namespace Measurements

def snapshot (m : Measurements) : Snapshot where
  nodes := m.nodes.map MeasuredNode.toProcessNode
  sorted := by
    rw [List.map_map]
    exact m.sorted

def get (m : Measurements) (pid : ℕ) : Option MeasuredNode :=
  m.nodes.find? fun node => node.pid = pid

end Measurements

/-- The operations of binary64 that the totals of the processor use. -/
structure F64Arithmetic where
  add : F64 → F64 → F64
  /-- `cpu_host_percent`. -/
  hostPercent : F64 → ℕ → F64

inductive CounterReadiness where
  | warmingUp | ready
  deriving DecidableEq

structure TreeMetrics where
  cpuCorePercent : F64
  rssBytes : ℕ
  runtimeMs : ℕ
  processCount : ℕ
  readBytesPerSec : ℕ
  writeBytesPerSec : ℕ
  quality : MetricQuality
  deriving DecidableEq

/-! ## Fixed-width arithmetic -/

def addU64 (a b : ℕ) : ℕ := (a + b) % 2 ^ 64

def addU32 (a b : ℕ) : ℕ := (a + b) % 2 ^ 32

def asU32 (n : ℕ) : ℕ := n % 2 ^ 32

def bytesPerSec (delta elapsedMs : ℕ) : ℕ :=
  if elapsedMs = 0 then 0 else delta * 1000 / elapsedMs % 2 ^ 64

/-! ## Quality -/

def maxMetricReasonLen : ℕ := 512

def truncateReason (reason : String) : String :=
  if reason.utf8ByteSize ≤ maxMetricReasonLen then reason
  else String.ofList (reason.toList.take maxMetricReasonLen)

/-- Some process below the root belongs to another session. -/
def treeHasOverlap (sessionIdx rootPid : ℕ) (owners : List (ℕ × ℕ)) (processes : Snapshot) : Bool :=
  decide (∃ pid ∈ collectDescendants rootPid processes,
    pid ≠ rootPid ∧ (ownerOf owners pid).any (· ≠ sessionIdx) = true)

/-- The walk up from a process ends before it meets the root, within so many hops. -/
def gapAbove (rootPid : ℕ) (processes : Snapshot) : ℕ → ℕ → Bool
  | 0, _ => false
  | n + 1, current => match processes.get current with
    | none => true
    | some node => match node.parentPid with
      | none => true
      | some parent => if parent = rootPid then false else gapAbove rootPid processes n parent

def treeHasParentGaps (rootPid : ℕ) (ownedPids : List ℕ) (processes : Snapshot) : Bool :=
  ownedPids.any fun pid => pid ≠ rootPid ∧ gapAbove rootPid processes maxParentWalkDepth pid

def buildAttribution (session : RegisteredSession) (rootStatus : RootStatus)
    (overlap parentGaps : Bool) : AttributionQuality × Option String :=
  match rootStatus with
  | .valid =>
    if overlap ∨ session.attribution = .shared then
      (.shared, if overlap then
        some (truncateReason "process tree overlaps a nearer registered ancestor") else none)
    else if parentGaps ∨ session.attribution = .heuristic then
      (.heuristic, if parentGaps then
        some (truncateReason "parent chain has protected or missed processes") else none)
    else (session.attribution, none)
  | .missing => (.unknown, some (truncateReason "registered root process is not visible"))
  | .pidReused =>
    (.unknown, some (truncateReason "pid was reused; start time no longer matches registration"))

def buildQuality (session : RegisteredSession) (rootStatus : RootStatus)
    (overlap parentGaps : Bool) (cpuReady ioReady : CounterReadiness) (io : IoQuality)
    (partialIo : Bool) : MetricQuality where
  attribution := (buildAttribution session rootStatus overlap parentGaps).1
  cpu :=
    if rootStatus ≠ .valid then .unavailable
    else if cpuReady = .warmingUp then .warmingUp
    else .available
  ioQuality :=
    if rootStatus ≠ .valid then .unavailable
    else if ioReady = .warmingUp then io
    else if partialIo then .partially
    else io
  reason := (buildAttribution session rootStatus overlap parentGaps).2

/-! ## Sessions -/

/-- The sums over the processes of a session. -/
structure TreeTotals where
  cpuCorePercent : F64 := ⟨0⟩
  rssBytes : ℕ := 0
  readDelta : ℕ := 0
  writeDelta : ℕ := 0
  ioSeen : ℕ := 0
  ioAvailableCount : ℕ := 0

def addProcess (fp : F64Arithmetic) (processes : Measurements) (t : TreeTotals) (pid : ℕ) :
    TreeTotals :=
  match processes.get pid with
  | none => t
  | some node =>
    { cpuCorePercent := fp.add t.cpuCorePercent node.cpuUsagePercent
      rssBytes := addU64 t.rssBytes node.rssBytes
      readDelta := addU64 t.readDelta node.readBytesDelta
      writeDelta := addU64 t.writeDelta node.writeBytesDelta
      ioSeen := addU32 t.ioSeen 1
      ioAvailableCount :=
        if node.ioAvailable then addU32 t.ioAvailableCount 1 else t.ioAvailableCount }

/-- The processes of a session. -/
def ownedBy (owners : List (ℕ × ℕ)) (sessionIdx : ℕ) : List ℕ :=
  (owners.filter fun owner => owner.2 = sessionIdx).map Prod.fst

def sessionMetrics (fp : F64Arithmetic) (processes : Measurements) (owners : List (ℕ × ℕ))
    (elapsedMs : ℕ) (atMs : ℤ) (cpuReady ioReady : CounterReadiness) (io : IoQuality)
    (session : RegisteredSession) (sessionIdx : ℕ) : TreeMetrics :=
  let rootStatus := verifyRoot session.root processes.snapshot
  let owned := ownedBy owners sessionIdx
  let overlap := rootStatus = .valid ∧
    treeHasOverlap sessionIdx session.root.pid owners processes.snapshot
  let parentGaps := rootStatus = .valid ∧
    treeHasParentGaps session.root.pid owned processes.snapshot
  let totals : TreeTotals :=
    if rootStatus = .valid then owned.foldl (addProcess fp processes) {} else {}
  let quality := buildQuality session rootStatus overlap parentGaps cpuReady ioReady io
    (0 < totals.ioSeen ∧ totals.ioAvailableCount < totals.ioSeen)
  { cpuCorePercent := if quality.cpu = .unavailable then ⟨0⟩ else totals.cpuCorePercent
    rssBytes := if quality.cpu = .unavailable then 0 else totals.rssBytes
    runtimeMs := ((processes.get session.root.pid).map fun node =>
      (wrapI64 (atMs - node.startedAtMs)).toNat).getD 0
    processCount := asU32 owned.length
    readBytesPerSec :=
      if quality.ioQuality = .unavailable then 0 else bytesPerSec totals.readDelta elapsedMs
    writeBytesPerSec :=
      if quality.ioQuality = .unavailable then 0 else bytesPerSec totals.writeDelta elapsedMs
    quality }

/-- The metrics of each session, and the owners they are computed from. -/
def computeSessionMetrics (fp : F64Arithmetic) (sessions : List RegisteredSession)
    (processes : Measurements) (elapsedMs : ℕ) (atMs : ℤ) (cpuReady ioReady : CounterReadiness)
    (io : IoQuality) : Dict String TreeMetrics × List (ℕ × ℕ) :=
  let owners := assignProcessOwners sessions processes.snapshot
  (sessions.zipIdx.foldl (fun metrics s => metrics.insert s.1.sessionId
    (sessionMetrics fp processes owners elapsedMs atMs cpuReady ioReady io s.1 s.2)) ∅, owners)

/-! ## The aggregate -/

def worsenAttribution (current next : AttributionQuality) : AttributionQuality :=
  if current = .unknown ∨ next = .unknown then .unknown
  else if current = .heuristic ∨ next = .heuristic then .heuristic
  else if current = .shared ∨ next = .shared then .shared
  else .exact

def worsenCpu (current next : MetricAvailability) : MetricAvailability :=
  if current = .unavailable ∨ next = .unavailable then .unavailable
  else if current = .warmingUp ∨ next = .warmingUp then .warmingUp
  else .available

def worsenIo (current next : IoQuality) : IoQuality :=
  if current = .unavailable ∨ next = .unavailable then .unavailable
  else if current = .partially ∨ next = .partially then .partially
  else if current = next then current
  else .partially

/-- The sums over the sessions. -/
structure AggregateTotals where
  cpuCorePercent : F64 := ⟨0⟩
  rssBytes : ℕ := 0
  runtimeMs : ℕ := 0
  processCount : ℕ := 0
  readBytesPerSec : ℕ := 0
  writeBytesPerSec : ℕ := 0
  attribution : AttributionQuality := .exact
  cpu : MetricAvailability := .available
  io : IoQuality
  reasons : List String := []
  contributed : ℕ := 0

def addTree (fp : F64Arithmetic) (t : AggregateTotals) (tree : TreeMetrics) : AggregateTotals :=
  if tree.quality.cpu = .unavailable then t
  else
    { cpuCorePercent := fp.add t.cpuCorePercent tree.cpuCorePercent
      rssBytes := addU64 t.rssBytes tree.rssBytes
      runtimeMs := max t.runtimeMs tree.runtimeMs
      processCount := addU32 t.processCount tree.processCount
      readBytesPerSec := addU64 t.readBytesPerSec tree.readBytesPerSec
      writeBytesPerSec := addU64 t.writeBytesPerSec tree.writeBytesPerSec
      attribution := worsenAttribution t.attribution tree.quality.attribution
      cpu := worsenCpu t.cpu tree.quality.cpu
      io := worsenIo t.io tree.quality.ioQuality
      reasons := t.reasons ++ tree.quality.reason.toList
      contributed := addU32 t.contributed 1 }

/-- The trees in the order of their session ids. -/
def treesOf (metrics : Dict String TreeMetrics) : List TreeMetrics :=
  (metrics.entries.insertionSort fun a b => a.1 ≤ b.1).map Sigma.snd

def computeAggregate (fp : F64Arithmetic) (metrics : Dict String TreeMetrics) (atMs : ℤ)
    (logicalCores activeSessions attentionSessions : ℕ) (io : IoQuality) : AgentAggregate :=
  let t := (treesOf metrics).foldl (addTree fp) { io := io }
  let none_ := metrics.entries.isEmpty ∨ t.contributed = 0
  { atMs
    cpuCorePercent := t.cpuCorePercent
    cpuHostPercent := fp.hostPercent t.cpuCorePercent logicalCores
    rssBytes := t.rssBytes
    runtimeMs := t.runtimeMs
    processCount := t.processCount
    readBytesPerSec := t.readBytesPerSec
    writeBytesPerSec := t.writeBytesPerSec
    quality :=
      { attribution := if none_ then .unknown else t.attribution
        cpu := if none_ then .unavailable else t.cpu
        ioQuality := if none_ then .unavailable else t.io
        reason := if t.reasons.isEmpty then none
          else some (truncateReason ("; ".intercalate t.reasons)) }
    activeSessions
    attentionSessions }

/-! ## Sums over fibers -/

section Fibers

variable {f : ℕ → ℕ} {owners : List (ℕ × ℕ)} {n : ℕ}

theorem sum_filter_lt_succ (owners : List (ℕ × ℕ)) (n : ℕ) :
    ((owners.filter fun o => o.2 < n + 1).map fun o => f o.1).sum =
      ((owners.filter fun o => o.2 < n).map fun o => f o.1).sum +
        ((owners.filter fun o => o.2 = n).map fun o => f o.1).sum := by
  induction owners with
  | nil => rfl
  | cons o owners ih =>
    rcases Nat.lt_trichotomy o.2 n with hlt | heq | hgt
    · rw [List.filter_cons_of_pos (by simp; omega), List.filter_cons_of_pos (by simpa using hlt),
        List.filter_cons_of_neg (by simp; omega)]
      simp only [List.map_cons, List.sum_cons, ih]
      omega
    · rw [List.filter_cons_of_pos (by simp; omega), List.filter_cons_of_neg (by simp; omega),
        List.filter_cons_of_pos (by simpa using heq)]
      simp only [List.map_cons, List.sum_cons, ih]
      omega
    · rw [List.filter_cons_of_neg (by simp; omega), List.filter_cons_of_neg (by simp; omega),
        List.filter_cons_of_neg (by simp; omega)]
      exact ih

/-- What the sessions own adds up to what is owned. -/
theorem sum_ownedBy (hlt : ∀ o ∈ owners, o.2 < n) :
    ((List.range n).map fun i => ((ownedBy owners i).map f).sum).sum =
      (owners.map fun o => f o.1).sum := by
  have hupto : ∀ n, ((List.range n).map fun i => ((ownedBy owners i).map f).sum).sum =
      ((owners.filter fun o => o.2 < n).map fun o => f o.1).sum := by
    intro n
    induction n with
    | zero => simp
    | succ n ih =>
      rw [List.range_succ, List.map_append, List.sum_append, ih, sum_filter_lt_succ]
      simp [ownedBy, Function.comp_def]
  rw [hupto, List.filter_eq_self.2 fun o ho => decide_eq_true (hlt o ho)]

end Fibers

/-! ## One session -/

section Session

variable {fp : F64Arithmetic} {sessions : List RegisteredSession} {processes : Measurements}
  {elapsedMs : ℕ} {atMs : ℤ} {cpuReady ioReady : CounterReadiness} {io : IoQuality}
  {session : RegisteredSession} {i : ℕ}

def rssOf (processes : Measurements) (pid : ℕ) : ℕ :=
  ((processes.get pid).map fun node => node.rssBytes).getD 0

/-- The memory of a list of processes. -/
def rssSum (processes : Measurements) (pids : List ℕ) : ℕ :=
  (pids.map (rssOf processes)).sum

theorem foldl_addProcess_rss {pids : List ℕ} {t : TreeTotals}
    (h : t.rssBytes + rssSum processes pids < 2 ^ 64) :
    (pids.foldl (addProcess fp processes) t).rssBytes =
      t.rssBytes + rssSum processes pids := by
  induction pids generalizing t with
  | nil => rfl
  | cons pid pids ih =>
    rw [rssSum, List.map_cons, List.sum_cons, ← rssSum] at h ⊢
    have hstep : (addProcess fp processes t pid).rssBytes = t.rssBytes + rssOf processes pid := by
      unfold addProcess rssOf
      cases hget : processes.get pid with
      | none => rfl
      | some node =>
        have hrss : rssOf processes pid = node.rssBytes := by
          rw [rssOf, hget]
          rfl
        exact Nat.mod_eq_of_lt (by omega)
    rw [List.foldl_cons, ih (by rw [hstep]; omega), hstep, Nat.add_assoc]

/-- An owner is a session with a live root. -/
theorem owner_isRoot {pid : ℕ}
    (h : (pid, i) ∈ assignProcessOwners sessions processes.snapshot) :
    ∃ r, IsRoot sessions processes.snapshot i r := by
  obtain ⟨k, -, hk⟩ := List.mem_filterMap.1 h
  obtain ⟨owner, howner, hpair⟩ := Option.map_eq_some_iff.1 hk
  obtain ⟨rfl, rfl⟩ := Prod.mk.inj hpair
  obtain ⟨hops, -, ⟨r, -, hroot, -⟩, -⟩ := (walkUp_eq_some_iff _).1 howner
  exact ⟨r, hroot⟩

/-- A session whose root is not live owns nothing. -/
theorem ownedBy_eq_nil (hsession : sessions[i]? = some session)
    (hroot : verifyRoot session.root processes.snapshot ≠ .valid) :
    ownedBy (assignProcessOwners sessions processes.snapshot) i = [] := by
  rw [ownedBy, List.map_eq_nil_iff, List.filter_eq_nil_iff]
  rintro ⟨pid, j⟩ hmem hj
  obtain rfl : j = i := of_decide_eq_true hj
  obtain ⟨r, found, hfound, -, hvalid⟩ := owner_isRoot hmem
  obtain rfl : found = session := Option.some.inj (hfound.symm.trans hsession)
  exact hroot hvalid

/-- The processor counters of a session are unavailable exactly if its root is not live. -/
theorem buildQuality_cpu {rootStatus : RootStatus} {overlap parentGaps partialIo : Bool} :
    (buildQuality session rootStatus overlap parentGaps cpuReady ioReady io partialIo).cpu =
      .unavailable ↔ rootStatus ≠ .valid := by
  unfold buildQuality
  dsimp only
  by_cases hroot : rootStatus ≠ .valid
  · simp [hroot]
  · rw [if_neg hroot]
    simp only [hroot, iff_false]
    split <;> exact fun h => by cases h

variable {owners : List (ℕ × ℕ)}

theorem sessionMetrics_processCount : (sessionMetrics fp processes owners elapsedMs atMs cpuReady
    ioReady io session i).processCount = asU32 (ownedBy owners i).length :=
  rfl

theorem sessionMetrics_cpu : (sessionMetrics fp processes owners elapsedMs atMs cpuReady
    ioReady io session i).quality.cpu = .unavailable ↔
      verifyRoot session.root processes.snapshot ≠ .valid :=
  buildQuality_cpu

theorem sessionMetrics_rss (howned : verifyRoot session.root processes.snapshot ≠ .valid →
      ownedBy owners i = [])
    (hfits : rssSum processes (ownedBy owners i) < 2 ^ 64) :
    (sessionMetrics fp processes owners elapsedMs atMs cpuReady ioReady io session i).rssBytes =
      rssSum processes (ownedBy owners i) := by
  have hcpu : (sessionMetrics fp processes owners elapsedMs atMs cpuReady ioReady io session
      i).quality.cpu = .unavailable ↔ verifyRoot session.root processes.snapshot ≠ .valid :=
    sessionMetrics_cpu
  by_cases hroot : verifyRoot session.root processes.snapshot = .valid
  · have hvisible := mt hcpu.1 (not_not_intro hroot)
    unfold sessionMetrics at hvisible ⊢
    dsimp only at hvisible ⊢
    rw [if_neg hvisible, if_pos hroot, foldl_addProcess_rss (by simpa using hfits)]
    exact Nat.zero_add _
  · have hhidden := hcpu.2 hroot
    unfold sessionMetrics at hhidden ⊢
    dsimp only at hhidden ⊢
    rw [if_pos hhidden, howned hroot]
    rfl

end Session

/-! ## All sessions -/

/-- Values inserted under new keys. -/
theorem perm_foldl_insert {α β : Type*} [DecidableEq α] {xs : List (α × β)} {m : Dict α β}
    (hnodup : (xs.map Prod.fst).Nodup) (hfresh : ∀ x ∈ xs, x.1 ∉ m.keys) :
    (Dict.values (xs.foldl (fun m x => m.insert x.1 x.2) m)).Perm
      (xs.map Prod.snd ++ Dict.values m) := by
  induction xs generalizing m with
  | nil => exact .refl _
  | cons x xs ih =>
    obtain ⟨hx, hrest⟩ := List.nodup_cons.1 hnodup
    have hkeys : ∀ y ∈ xs, y.1 ∉ (m.insert x.1 x.2).keys := by
      intro y hy hmem
      rw [AList.keys_insert, List.mem_cons] at hmem
      rcases hmem with heq | hold
      · exact hx (heq ▸ List.mem_map_of_mem hy)
      · exact hfresh y (List.mem_cons_of_mem x hy) (List.mem_of_mem_erase hold)
    have hvalues : Dict.values (m.insert x.1 x.2) = x.2 :: Dict.values m := by
      unfold Dict.values
      rw [AList.entries_insert, List.kerase_of_notMem_keys (hfresh x List.mem_cons_self)]
      rfl
    refine (ih hrest hkeys).trans ?_
    rw [hvalues]
    exact List.perm_middle

section Sessions

variable {fp : F64Arithmetic} {sessions : List RegisteredSession} {processes : Measurements}
  {elapsedMs : ℕ} {atMs : ℤ} {cpuReady ioReady : CounterReadiness} {io : IoQuality}

theorem sessionMetrics_ids_nodup {f : RegisteredSession × ℕ → TreeMetrics}
    (hdistinct : (sessions.map (·.sessionId)).Nodup) :
    ((sessions.zipIdx.map fun s => (s.1.sessionId, f s)).map Prod.fst).Nodup := by
  have hids := congrArg (List.map fun s : RegisteredSession => s.sessionId)
    (List.zipIdx_map_fst 0 sessions)
  rw [List.map_map] at hids ⊢
  exact hids ▸ hdistinct

theorem values_computeSessionMetrics (hdistinct : (sessions.map (·.sessionId)).Nodup) :
    (Dict.values
      (computeSessionMetrics fp sessions processes elapsedMs atMs cpuReady ioReady io).1).Perm
      (sessions.zipIdx.map fun s => sessionMetrics fp processes
        (assignProcessOwners sessions processes.snapshot) elapsedMs atMs cpuReady ioReady io
        s.1 s.2) := by
  have hperm := perm_foldl_insert (m := (∅ : Dict String TreeMetrics))
    (sessionMetrics_ids_nodup (f := fun s => sessionMetrics fp processes
      (assignProcessOwners sessions processes.snapshot) elapsedMs atMs cpuReady ioReady io s.1 s.2)
      hdistinct) fun _ _ => AList.notMem_empty _
  rw [List.foldl_map, List.map_map] at hperm
  refine hperm.trans ?_
  exact (List.append_nil _).symm ▸ .refl _

/-- The sessions whose root is not live add nothing to the aggregate. -/
theorem foldl_addTree (fp : F64Arithmetic) {trees : List TreeMetrics} {t : AggregateTotals}
    (hskip : ∀ tree ∈ trees, tree.quality.cpu = .unavailable →
      tree.rssBytes = 0 ∧ tree.processCount = 0)
    (hrss : t.rssBytes + (trees.map (·.rssBytes)).sum < 2 ^ 64)
    (hcount : t.processCount + (trees.map (·.processCount)).sum < 2 ^ 32) :
    (trees.foldl (addTree fp) t).rssBytes = t.rssBytes + (trees.map (·.rssBytes)).sum ∧
      (trees.foldl (addTree fp) t).processCount =
        t.processCount + (trees.map (·.processCount)).sum := by
  induction trees generalizing t with
  | nil => exact ⟨rfl, rfl⟩
  | cons tree trees ih =>
    rw [List.map_cons, List.sum_cons] at hrss hcount ⊢
    rw [List.map_cons, List.sum_cons]
    have hstep : (addTree fp t tree).rssBytes = t.rssBytes + tree.rssBytes ∧
        (addTree fp t tree).processCount = t.processCount + tree.processCount := by
      unfold addTree
      split
      · rename_i hcpu
        obtain ⟨hr, hc⟩ := hskip tree List.mem_cons_self hcpu
        rw [hr, hc]
        exact ⟨rfl, rfl⟩
      · exact ⟨Nat.mod_eq_of_lt (by omega), Nat.mod_eq_of_lt (by omega)⟩
    rw [List.foldl_cons]
    obtain ⟨hr, hc⟩ := ih (t := addTree fp t tree)
      (fun x hx => hskip x (List.mem_cons_of_mem tree hx))
      (by rw [hstep.1]; omega) (by rw [hstep.2]; omega)
    rw [hr, hc, hstep.1, hstep.2]
    exact ⟨Nat.add_assoc _ _ _, Nat.add_assoc _ _ _⟩

theorem treesOf_perm (metrics : Dict String TreeMetrics) :
    (treesOf metrics).Perm (Dict.values metrics) :=
  (List.perm_insertionSort _ _).map _

end Sessions

/-! ## Conservation -/

/-- The sessions, and the aggregate, account for exactly the owned processes. -/
structure Conserved (processes : Measurements) (metrics : Dict String TreeMetrics)
    (owners : List (ℕ × ℕ)) (aggregate : AgentAggregate) : Prop where
  once : (owners.map Prod.fst).Nodup
  counts : ((Dict.values metrics).map (·.processCount)).sum = owners.length
  rss : ((Dict.values metrics).map (·.rssBytes)).sum = rssSum processes (owners.map Prod.fst)
  aggregateCount : aggregate.processCount = owners.length
  aggregateRss : aggregate.rssBytes = rssSum processes (owners.map Prod.fst)

section Conservation

variable {fp : F64Arithmetic} {sessions : List RegisteredSession} {processes : Measurements}
  {elapsedMs : ℕ} {atMs : ℤ} {cpuReady ioReady : CounterReadiness} {io : IoQuality}
  {logicalCores activeSessions attentionSessions : ℕ}

theorem foldl_addTree_lt {trees : List TreeMetrics} {t : AggregateTotals}
    (h : t.processCount < 2 ^ 32) : (trees.foldl (addTree fp) t).processCount < 2 ^ 32 := by
  induction trees generalizing t with
  | nil => exact h
  | cons tree trees ih =>
    refine ih ?_
    unfold addTree
    split
    · exact h
    · exact Nat.mod_lt _ (by decide)

/-- A count has 32 bits. -/
theorem Conserved.length_lt {metrics : Dict String TreeMetrics} {owners : List (ℕ × ℕ)}
    (h : Conserved processes metrics owners (computeAggregate fp metrics atMs logicalCores
      activeSessions attentionSessions io)) : owners.length < 2 ^ 32 := by
  rw [← h.aggregateCount]
  exact foldl_addTree_lt (Nat.two_pow_pos 32)

/-- What the sessions own, added up by session. -/
theorem sum_sessions (sessions : List RegisteredSession) (processes : Measurements) (f : ℕ → ℕ) :
    ((sessions.zipIdx.map fun s =>
      ((ownedBy (assignProcessOwners sessions processes.snapshot) s.2).map f).sum)).sum =
      ((assignProcessOwners sessions processes.snapshot).map fun o => f o.1).sum := by
  have hlt : ∀ o ∈ assignProcessOwners sessions processes.snapshot, o.2 < sessions.length := by
    rintro ⟨pid, i⟩ ho
    obtain ⟨r, session, hsession, -⟩ := owner_isRoot ho
    exact (List.getElem?_eq_some_iff.1 hsession).1
  rw [← sum_ownedBy hlt]
  have hidx := congrArg (List.map fun i =>
    ((ownedBy (assignProcessOwners sessions processes.snapshot) i).map f).sum)
    (List.zipIdx_map_snd 0 sessions)
  rw [List.map_map, ← List.range_eq_range'] at hidx
  exact congrArg List.sum hidx

/-- For distinct sessions whose processes' memory fits 64 bits, nothing is lost and nothing
counted twice exactly if the number of owned processes fits 32 bits. -/
theorem conserved_iff (hdistinct : (sessions.map (·.sessionId)).Nodup)
    (hrss : rssSum processes
      ((assignProcessOwners sessions processes.snapshot).map Prod.fst) < 2 ^ 64) :
    let pass := computeSessionMetrics fp sessions processes elapsedMs atMs cpuReady ioReady io
    Conserved processes pass.1 pass.2 (computeAggregate fp pass.1 atMs logicalCores
      activeSessions attentionSessions io) ↔ pass.2.length < 2 ^ 32 := by
  intro pass
  refine ⟨Conserved.length_lt, fun hlength => ?_⟩
  set owners := assignProcessOwners sessions processes.snapshot with howners
  have hvalues : (Dict.values pass.1).Perm (sessions.zipIdx.map fun s =>
      sessionMetrics fp processes owners elapsedMs atMs cpuReady ioReady io s.1 s.2) :=
    values_computeSessionMetrics hdistinct
  -- each session by itself
  have hcountSum : (sessions.zipIdx.map fun s => (ownedBy owners s.2).length).sum =
      owners.length := by
    simpa using sum_sessions sessions processes fun _ => 1
  have hrssSum : (sessions.zipIdx.map fun s => rssSum processes (ownedBy owners s.2)).sum =
      rssSum processes (owners.map Prod.fst) := by
    rw [rssSum, List.map_map]
    exact sum_sessions sessions processes (rssOf processes)
  have hcount : ∀ s ∈ sessions.zipIdx, (ownedBy owners s.2).length < 2 ^ 32 := fun s hs =>
    (List.le_sum_of_mem (List.mem_map.2 ⟨s, hs, rfl⟩)).trans_lt (hcountSum.trans_lt hlength)
  have hfits : ∀ s ∈ sessions.zipIdx, rssSum processes (ownedBy owners s.2) < 2 ^ 64 :=
    fun s hs => (List.le_sum_of_mem (List.mem_map.2 ⟨s, hs, rfl⟩)).trans_lt (hrssSum.trans_lt hrss)
  have hnone : ∀ s ∈ sessions.zipIdx, verifyRoot s.1.root processes.snapshot ≠ .valid →
      ownedBy owners s.2 = [] := fun s hs =>
    ownedBy_eq_nil (List.mem_zipIdx_iff_getElem?.1 hs)
  have hrssOf : ∀ s ∈ sessions.zipIdx, (sessionMetrics fp processes owners elapsedMs atMs cpuReady
      ioReady io s.1 s.2).rssBytes = rssSum processes (ownedBy owners s.2) := fun s hs =>
    sessionMetrics_rss (hnone s hs) (hfits s hs)
  -- all sessions
  have hcounts : ((Dict.values pass.1).map (·.processCount)).sum = owners.length := by
    rw [(hvalues.map _).sum_eq, List.map_map, ← hcountSum]
    exact congrArg List.sum (List.map_congr_left fun s hs => Nat.mod_eq_of_lt (hcount s hs))
  have hrsses : ((Dict.values pass.1).map (·.rssBytes)).sum =
      rssSum processes (owners.map Prod.fst) := by
    rw [(hvalues.map _).sum_eq, List.map_map, ← hrssSum]
    exact congrArg List.sum (List.map_congr_left hrssOf)
  have htrees : ∀ f : TreeMetrics → ℕ, ((treesOf pass.1).map f).sum =
      ((Dict.values pass.1).map f).sum := fun f => ((treesOf_perm pass.1).map f).sum_eq
  have hskip : ∀ tree ∈ treesOf pass.1, tree.quality.cpu = .unavailable →
      tree.rssBytes = 0 ∧ tree.processCount = 0 := by
    intro tree htree hcpu
    obtain ⟨s, hs, rfl⟩ := List.mem_map.1 (hvalues.mem_iff.1 ((treesOf_perm pass.1).mem_iff.1 htree))
    have hnil := hnone s hs (sessionMetrics_cpu.1 hcpu)
    rw [hrssOf s hs, sessionMetrics_processCount, hnil]
    exact ⟨rfl, rfl⟩
  obtain ⟨hrssAll, hcountAll⟩ := foldl_addTree fp (t := { io := io }) hskip
    (by rw [htrees, hrsses, Nat.zero_add]; exact hrss)
    (by rw [htrees, hcounts, Nat.zero_add]; exact hlength)
  refine ⟨owners_nodup sessions processes.snapshot, hcounts, hrsses, hcountAll.trans ?_,
    hrssAll.trans ?_⟩
  · rw [htrees, hcounts]
    exact Nat.zero_add _
  · rw [htrees, hrsses]
    exact Nat.zero_add _

end Conservation

/-! ## A machine with every identifier in use -/

/-- A process that uses nothing, started by process 0. -/
def idleNode (pid : ℕ) : MeasuredNode where
  pid := pid
  parentPid := some 0
  startedAtMs := 1000
  cpuUsagePercent := ⟨0⟩
  rssBytes := 0
  readBytesDelta := 0
  writeBytesDelta := 0
  ioAvailable := true

/-- So many processes, all started by the first one. -/
def star (n : ℕ) : Measurements where
  nodes := (List.range n).map idleNode
  sorted := by
    rw [List.map_map]
    exact List.pairwise_map.2 List.pairwise_lt_range

def starSession : RegisteredSession :=
  ⟨"s", ⟨0, 1000⟩, .exact, 0⟩

/-- Arithmetic that is right for zeros. -/
def zeroArithmetic : F64Arithmetic :=
  ⟨fun a _ => a, fun a _ => a⟩

theorem keys_star (n : ℕ) : (star n).snapshot.keys = List.range n := by
  rw [Snapshot.keys, Measurements.snapshot, star, List.map_map, List.map_map]
  exact List.map_id _

theorem get_star {n k : ℕ} (h : k < n) : (star n).snapshot.get k = some ⟨k, some 0, 1000⟩ := by
  have hfind : (List.range n).find? (fun j => decide (j = k)) = some k := by
    rw [List.find?_range_eq_some]
    exact ⟨decide_eq_true rfl, List.mem_range.2 h, fun j hj => by simpa using hj.ne⟩
  rw [Snapshot.get, Measurements.snapshot, star, List.find?_map, List.find?_map]
  exact congrArg (Option.map _) (congrArg (Option.map _) hfind)

theorem nearest_star {n k : ℕ} (hn : 0 < n) (hk : k < n) :
    ∃ hops < maxParentWalkDepth, Nearest [starSession] (star n).snapshot k hops 0 := by
  have hroot : IsRoot [starSession] (star n).snapshot 0 0 := by
    refine ⟨starSession, rfl, rfl, ?_⟩
    rw [verifyRoot, show starSession.root.pid = 0 from rfl, get_star hn]
    rfl
  have honly : ∀ j pid, IsRoot [starSession] (star n).snapshot j pid → pid = 0 := by
    rintro j pid ⟨session, hsession, rfl, -⟩
    obtain rfl : session = starSession := List.mem_singleton.1 (List.mem_of_getElem? hsession)
    rfl
  have hfirst := nearest_zero_iff.2 ⟨hroot, fun j hj => absurd hj (Nat.not_lt_zero j)⟩
  by_cases hzero : k = 0
  · subst hzero
    exact ⟨0, by decide, hfirst⟩
  · refine ⟨1, by decide, (nearest_succ_iff fun j hj => hzero (honly j k hj)).2 ⟨0, ?_, hfirst⟩⟩
    rw [get_star hk]
    rfl

/-- All processes are owned. -/
theorem owners_star {n : ℕ} (hn : 0 < n) :
    assignProcessOwners [starSession] (star n).snapshot =
      (List.range n).map fun pid => (pid, 0) := by
  rw [assignProcessOwners, keys_star, ← List.filterMap_eq_map]
  refine List.filterMap_congr fun pid hpid => ?_
  have howner : nearestRegisteredOwner pid (validRoots [starSession] (star n).snapshot)
      (star n).snapshot = some 0 :=
    (walkUp_eq_some_iff _).2 (nearest_star hn (List.mem_range.1 hpid))
  rw [howner]
  rfl

theorem rssOf_star (n pid : ℕ) : rssOf (star n) pid = 0 := by
  rw [rssOf]
  cases hget : (star n).get pid with
  | none => rfl
  | some node =>
    obtain ⟨k, -, rfl⟩ := List.mem_map.1 (List.mem_of_find?_eq_some hget)
    rfl

theorem pass_star {n : ℕ} (hn : 0 < n) :
    let pass := computeSessionMetrics zeroArithmetic [starSession] (star n) 1000 2000 .ready
      .ready .disk
    pass.2.length = n ∧ rssSum (star n) (pass.2.map Prod.fst) = 0 := by
  intro pass
  have howners : pass.2 = (List.range n).map fun pid => (pid, 0) := owners_star hn
  refine ⟨by rw [howners, List.length_map, List.length_range], ?_⟩
  rw [rssSum, List.sum_eq_zero]
  intro rss hrss
  obtain ⟨pid, -, rfl⟩ := List.mem_map.1 hrss
  exact rssOf_star n pid

/-- A process with a child, and another one. -/
def family : Measurements where
  nodes := [{ idleNode 1 with parentPid := none, rssBytes := 4096 },
    { idleNode 2 with parentPid := some 1, rssBytes := 1024 },
    { idleNode 3 with parentPid := none, rssBytes := 8192 }]
  sorted := by decide

def familySessions : List RegisteredSession :=
  [⟨"s", ⟨1, 1000⟩, .exact, 0⟩, ⟨"t", ⟨3, 1000⟩, .exact, 0⟩]

/-- The processes of two sessions are all accounted for. -/
theorem conserved_iff_family :
    let pass := computeSessionMetrics zeroArithmetic familySessions family 1000 2000 .ready
      .ready .disk
    (Conserved family pass.1 pass.2 (computeAggregate zeroArithmetic pass.1 2000 4 1 0 .disk) ↔
      pass.2.length < 2 ^ 32) ∧ pass.2 = [(1, 0), (2, 0), (3, 1)] ∧
      rssSum family (pass.2.map Prod.fst) = 13312 :=
  ⟨conserved_iff (by decide) (by decide), by decide, by decide⟩

/-- With all identifiers of 32 bits in use, below one root, the count of the aggregate is not that
of the processes. -/
theorem count_wraps :
    let pass := computeSessionMetrics zeroArithmetic [starSession] (star (2 ^ 32)) 1000 2000
      .ready .ready .disk
    rssSum (star (2 ^ 32)) (pass.2.map Prod.fst) = 0 ∧
      ¬ Conserved (star (2 ^ 32)) pass.1 pass.2
        (computeAggregate zeroArithmetic pass.1 2000 4 1 0 .disk) := by
  intro pass
  obtain ⟨hlength, hrss⟩ := pass_star (Nat.two_pow_pos 32)
  exact ⟨hrss, fun h => hlength.not_lt h.length_lt⟩

end Metrics

end LlmNotch
