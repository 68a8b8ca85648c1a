import LlmNotch.Protocol
import LlmNotch.WorkList

/-!
# The owners of processes

A snapshot lists the processes of the machine, each with the identifier of its parent; the parents
may be missing and may form cycles. `assignProcessOwners` walks up from every process to the first
root of a registered session, and `collectDescendants` walks down from a root.

The walk up looks at `maxParentWalkDepth` identifiers, the process among them, so it makes one hop
less than it may. `attribution_iff` : the owners are the sessions of the nearest roots exactly if no
process has its nearest root that many hops above it.
-/

namespace LlmNotch

namespace Metrics

def maxParentWalkDepth : ℕ := 256

/-! ## Snapshots -/

structure ProcessNode where
  pid : ℕ
  parentPid : Option ℕ
  startedAtMs : ℤ
  deriving DecidableEq

/-- The processes in the order of their identifiers. -/
structure Snapshot where
  nodes : List ProcessNode
  sorted : (nodes.map ProcessNode.pid).Pairwise (· < ·)

namespace Snapshot

def keys (s : Snapshot) : List ℕ :=
  s.nodes.map ProcessNode.pid

def get (s : Snapshot) (pid : ℕ) : Option ProcessNode :=
  s.nodes.find? fun node => node.pid = pid

end Snapshot

structure RegisteredSession where
  sessionId : String
  root : ProcessIdentity
  attribution : AttributionQuality
  registeredAtMs : ℤ
  deriving DecidableEq

inductive RootStatus where
  | valid | missing | pidReused
  deriving DecidableEq

/-- A start time is positive in a payload and not negative in an observation, so that the
difference of two of them is an `i64`. -/
def startTimesMatch (expectedMs observedMs : ℤ) : Bool :=
  (expectedMs - observedMs).natAbs < 1000

def verifyRoot (identity : ProcessIdentity) (processes : Snapshot) : RootStatus :=
  match processes.get identity.pid with
  | none => .missing
  | some node =>
    if startTimesMatch identity.startedAtMs node.startedAtMs then .valid else .pidReused

/-- The children of a process; a process without an entry has none. -/
def childrenIndex (processes : Snapshot) (parent : ℕ) : List ℕ :=
  ((processes.nodes.filter fun node => node.parentPid = some parent).map
    ProcessNode.pid).mergeSort

def collectDescendants (rootPid : ℕ) (processes : Snapshot) : Finset ℕ :=
  WorkList.search processes.keys (childrenIndex processes) rootPid

/-! ## Owners -/

/-- The registered sessions with a live root, and its identifier. -/
def validRoots (sessions : List RegisteredSession) (processes : Snapshot) : List (ℕ × ℕ) :=
  sessions.zipIdx.filterMap fun (session, idx) =>
    if verifyRoot session.root processes = .valid then some (idx, session.root.pid) else none

/-- The walk up, with the number of identifiers it may still look at. -/
def walkUp (roots : List (ℕ × ℕ)) (processes : Snapshot) : ℕ → ℕ → Option ℕ
  | 0, _ => none
  | n + 1, current => match roots.find? fun root => root.2 = current with
    | some (idx, _) => some idx
    | none => match processes.get current with
      | none => none
      | some node => match node.parentPid with
        | none => none
        | some parent => walkUp roots processes n parent

def nearestRegisteredOwner (pid : ℕ) (roots : List (ℕ × ℕ)) (processes : Snapshot) : Option ℕ :=
  walkUp roots processes maxParentWalkDepth pid

/-- The owner of each process that has one. -/
def assignProcessOwners (sessions : List RegisteredSession) (processes : Snapshot) :
    List (ℕ × ℕ) :=
  processes.keys.filterMap fun pid =>
    (nearestRegisteredOwner pid (validRoots sessions processes) processes).map fun owner =>
      (pid, owner)

def ownerOf (owners : List (ℕ × ℕ)) (pid : ℕ) : Option ℕ :=
  owners.lookup pid

/-! ## What attribution is for -/

/-- The identifier some hops above a process. -/
def ancestor (processes : Snapshot) : ℕ → ℕ → Option ℕ
  | 0, pid => some pid
  | n + 1, pid => ((processes.get pid).bind ProcessNode.parentPid).bind (ancestor processes n)

/-- The process is the live root of a session. -/
def IsRoot (sessions : List RegisteredSession) (processes : Snapshot) (i pid : ℕ) : Prop :=
  ∃ session, sessions[i]? = some session ∧ session.root.pid = pid ∧
    verifyRoot session.root processes = .valid

/-- The nearest root is that of the session, so many hops above the process; of several sessions
with this root it is the first. -/
structure Nearest (sessions : List RegisteredSession) (processes : Snapshot) (pid hops i : ℕ) :
    Prop where
  root : ∃ r, ancestor processes hops pid = some r ∧ IsRoot sessions processes i r ∧
    ∀ j < i, ¬ IsRoot sessions processes j r
  none_below : ∀ n < hops, ∀ r, ancestor processes n pid = some r →
    ∀ j, ¬ IsRoot sessions processes j r

/-- Every process has at most one owner, the session of its nearest root within the bound; what a
session owns is below its root, and what is below its root within the bound is its own or that of
a session with a root on the way. -/
structure Attribution (sessions : List RegisteredSession) (processes : Snapshot) : Prop where
  exclusive : ((assignProcessOwners sessions processes).map Prod.fst).Nodup
  nearest : ∀ pid ∈ processes.keys, ∀ i,
    ownerOf (assignProcessOwners sessions processes) pid = some i ↔
      ∃ hops ≤ maxParentWalkDepth, Nearest sessions processes pid hops i
  descendant : ∀ pid i session, ownerOf (assignProcessOwners sessions processes) pid = some i →
    sessions[i]? = some session → pid ∈ collectDescendants session.root.pid processes
  covered : ∀ i session, sessions[i]? = some session → verifyRoot session.root processes = .valid →
    ∀ pid ∈ collectDescendants session.root.pid processes, ∀ hops ≤ maxParentWalkDepth,
      ancestor processes hops pid = some session.root.pid →
      ∃ j, ownerOf (assignProcessOwners sessions processes) pid = some j ∧
        (j = i ∨ ∃ n ≤ hops, ∃ r, ancestor processes n pid = some r ∧
          IsRoot sessions processes j r)

/-! ## The roots -/

section Roots

variable {sessions : List RegisteredSession} {processes : Snapshot} {i pid : ℕ}

theorem mem_validRoots_iff : (i, pid) ∈ validRoots sessions processes ↔
    IsRoot sessions processes i pid := by
  simp only [validRoots, List.mem_filterMap, Prod.exists, List.mem_zipIdx_iff_getElem?]
  constructor
  · rintro ⟨session, idx, hsession, hroot⟩
    split_ifs at hroot with hvalid
    obtain ⟨rfl, rfl⟩ := Prod.mk.inj (Option.some.inj hroot)
    exact ⟨session, hsession, rfl, hvalid⟩
  · rintro ⟨session, hsession, rfl, hvalid⟩
    exact ⟨session, i, hsession, if_pos hvalid⟩

theorem validRoots_sorted (sessions : List RegisteredSession) (processes : Snapshot) :
    (validRoots sessions processes).Pairwise fun a b => a.1 < b.1 := by
  have hindex : sessions.zipIdx.Pairwise fun a b => a.2 < b.2 := by
    refine List.pairwise_map.1 ?_
    rw [List.zipIdx_map_snd]
    exact List.pairwise_lt_range'
  refine hindex.filterMap _ fun a b hab x hx y hy => ?_
  have hfst : ∀ (c : RegisteredSession × ℕ) (z : ℕ × ℕ),
      z ∈ (if verifyRoot c.1.root processes = .valid then some (c.2, c.1.root.pid) else none) →
      z.1 = c.2 := by
    intro c z hz
    split_ifs at hz
    · cases hz
      rfl
    · cases hz
  rw [hfst a x hx, hfst b y hy]
  exact hab

theorem find_validRoots_eq_none : (validRoots sessions processes).find? (fun root => root.2 = pid) =
    none ↔ ∀ j, ¬ IsRoot sessions processes j pid := by
  rw [List.find?_eq_none]
  constructor
  · intro h j hroot
    exact h (j, pid) (mem_validRoots_iff.2 hroot) (decide_eq_true rfl)
  · rintro h ⟨j, other⟩ hmem hpid
    obtain rfl : other = pid := of_decide_eq_true hpid
    exact h j (mem_validRoots_iff.1 hmem)

/-- The root that is found is that of the first session. -/
theorem first_of_find_validRoots {root : ℕ × ℕ}
    (h : (validRoots sessions processes).find? (fun root => root.2 = pid) = some root) :
    IsRoot sessions processes root.1 pid ∧ ∀ j < root.1, ¬ IsRoot sessions processes j pid := by
  obtain ⟨hpid, before, after, hsplit, hbefore⟩ := List.find?_eq_some_iff_append.1 h
  obtain ⟨i, other⟩ := root
  obtain rfl : other = pid := of_decide_eq_true hpid
  refine ⟨mem_validRoots_iff.1 (List.mem_of_find?_eq_some h), fun j hj hroot => ?_⟩
  have hsorted := validRoots_sorted sessions processes
  have hmem := mem_validRoots_iff.2 hroot
  rw [hsplit] at hsorted hmem
  rcases List.mem_append.1 hmem with hearlier | hlater
  · simpa using hbefore _ hearlier
  · rcases List.mem_cons.1 hlater with heq | hlater
    · exact hj.ne (Prod.mk.inj heq).1
    · have hless := (List.pairwise_cons.1 (List.pairwise_append.1 hsorted).2.1).1 _ hlater
      exact hj.not_gt hless

end Roots

/-! ## The walk up -/

section Walk

variable {sessions : List RegisteredSession} {processes : Snapshot} {i pid hops : ℕ}

theorem nearest_zero_iff : Nearest sessions processes pid 0 i ↔
    IsRoot sessions processes i pid ∧ ∀ j < i, ¬ IsRoot sessions processes j pid := by
  constructor
  · rintro ⟨⟨r, hr, hroot⟩, -⟩
    obtain rfl : pid = r := Option.some.inj hr
    exact hroot
  · intro hroot
    exact ⟨⟨pid, rfl, hroot⟩, fun n hn => absurd hn (Nat.not_lt_zero n)⟩

/-- A process that is no root has the nearest root of its parent. -/
theorem nearest_succ_iff (hpid : ∀ j, ¬ IsRoot sessions processes j pid) :
    Nearest sessions processes pid (hops + 1) i ↔
      ∃ parent, (processes.get pid).bind ProcessNode.parentPid = some parent ∧
        Nearest sessions processes parent hops i := by
  constructor
  · rintro ⟨⟨r, hr, hroot⟩, hbelow⟩
    obtain ⟨parent, hparent, hup⟩ := Option.bind_eq_some_iff.1 hr
    refine ⟨parent, hparent, ⟨r, hup, hroot⟩, fun n hn q hq => ?_⟩
    refine hbelow (n + 1) (Nat.succ_lt_succ hn) q ?_
    rw [ancestor, hparent]
    exact hq
  · rintro ⟨parent, hparent, ⟨r, hup, hroot⟩, hbelow⟩
    refine ⟨⟨r, ?_, hroot⟩, fun n hn q hq => ?_⟩
    · rw [ancestor, hparent]
      exact hup
    · cases n with
      | zero =>
        obtain rfl : pid = q := Option.some.inj hq
        exact hpid
      | succ n =>
        rw [ancestor, hparent] at hq
        exact hbelow n (Nat.lt_of_succ_lt_succ hn) q hq

theorem Nearest.unique {other j : ℕ} (h : Nearest sessions processes pid hops i)
    (hother : Nearest sessions processes pid other j) : hops = other := by
  obtain ⟨⟨r, hr, hroot, -⟩, hbelow⟩ := h
  obtain ⟨⟨q, hq, hroot', -⟩, hbelow'⟩ := hother
  rcases Nat.lt_trichotomy hops other with hless | heq | hless
  · exact absurd hroot (hbelow' hops hless r hr i)
  · exact heq
  · exact absurd hroot' (hbelow other hless q hq j)

/-- What the walk finds when it may look at `n` identifiers. -/
theorem walkUp_eq_some_iff (n : ℕ) :
    walkUp (validRoots sessions processes) processes n pid = some i ↔
      ∃ hops < n, Nearest sessions processes pid hops i := by
  induction n generalizing pid with
  | zero => simp [walkUp]
  | succ n ih =>
    rw [walkUp]
    cases hfind : (validRoots sessions processes).find? (fun root => root.2 = pid) with
    | some root =>
      have hfirst := nearest_zero_iff.2 (first_of_find_validRoots hfind)
      constructor
      · intro h
        obtain rfl : root.1 = i := Option.some.inj h
        exact ⟨0, Nat.succ_pos n, hfirst⟩
      · rintro ⟨hops, -, hnearest⟩
        obtain rfl := hnearest.unique hfirst
        obtain ⟨hroot, hleast⟩ := nearest_zero_iff.1 hnearest
        obtain ⟨hroot', hleast'⟩ := nearest_zero_iff.1 hfirst
        refine congrArg some (Nat.le_antisymm (not_lt.1 fun hlt => ?_) (not_lt.1 fun hlt => ?_))
        · exact hleast' i hlt hroot
        · exact hleast root.1 hlt hroot'
    | none =>
      have hpid := find_validRoots_eq_none.1 hfind
      have hup : (∃ hops < n + 1, Nearest sessions processes pid hops i) ↔
          ∃ parent, (processes.get pid).bind ProcessNode.parentPid = some parent ∧
            ∃ hops < n, Nearest sessions processes parent hops i := by
        constructor
        · rintro ⟨hops, hless, hnearest⟩
          cases hops with
          | zero => exact absurd (nearest_zero_iff.1 hnearest).1 (hpid i)
          | succ hops =>
            obtain ⟨parent, hparent, hrest⟩ := (nearest_succ_iff hpid).1 hnearest
            exact ⟨parent, hparent, hops, Nat.lt_of_succ_lt_succ hless, hrest⟩
        · rintro ⟨parent, hparent, hops, hless, hrest⟩
          exact ⟨hops + 1, Nat.succ_lt_succ hless,
            (nearest_succ_iff hpid).2 ⟨parent, hparent, hrest⟩⟩
      rw [hup]
      dsimp only
      cases hget : processes.get pid with
      | none => simp
      | some node =>
        cases hparent : node.parentPid with
        | none => simp [hparent]
        | some parent =>
          dsimp only
          rw [hparent, ih]
          simp [hparent]

theorem lookup_filterMap (f : ℕ → Option ℕ) (keys : List ℕ) (key : ℕ) :
    (keys.filterMap fun k => (f k).map fun value => (k, value)).lookup key =
      if key ∈ keys then f key else none := by
  induction keys with
  | nil => rfl
  | cons k keys ih =>
    rw [List.filterMap_cons]
    by_cases hkey : key = k
    · subst hkey
      cases hf : f key with
      | none => simp [ih, hf]
      | some value => simp
    · have hbeq : (key == k) = false := beq_eq_false_iff_ne.2 hkey
      cases hf : f k with
      | none => simp [ih, hkey]
      | some value => simp [List.lookup_cons, ih, hkey, hbeq]

/-- The owner of a process is the session of the nearest root, less than the bound above it. -/
theorem ownerOf_eq_some_iff :
    ownerOf (assignProcessOwners sessions processes) pid = some i ↔
      pid ∈ processes.keys ∧
        ∃ hops < maxParentWalkDepth, Nearest sessions processes pid hops i := by
  rw [ownerOf, assignProcessOwners, lookup_filterMap]
  by_cases hpid : pid ∈ processes.keys
  · rw [if_pos hpid, nearestRegisteredOwner, walkUp_eq_some_iff]
    exact (and_iff_right hpid).symm
  · rw [if_neg hpid]
    simp [hpid]

theorem owners_nodup (sessions : List RegisteredSession) (processes : Snapshot) :
    ((assignProcessOwners sessions processes).map Prod.fst).Nodup := by
  have hkeys : processes.keys.Nodup := processes.sorted.imp Nat.ne_of_lt
  have hsub : ((assignProcessOwners sessions processes).map Prod.fst).Sublist processes.keys := by
    rw [assignProcessOwners]
    induction processes.keys with
    | nil => exact List.Sublist.slnil
    | cons pid rest ih =>
      rw [List.filterMap_cons]
      cases nearestRegisteredOwner pid (validRoots sessions processes) processes with
      | none => exact ih.cons pid
      | some owner => exact ih.cons_cons pid
  exact hsub.nodup hkeys

end Walk

/-! ## The walk down -/

section Down

variable {sessions : List RegisteredSession} {processes : Snapshot} {pid hops r : ℕ}

theorem mem_keys_of_get {node : ProcessNode} (h : processes.get pid = some node) :
    pid ∈ processes.keys ∧ node ∈ processes.nodes ∧ node.pid = pid := by
  have hmem := List.mem_of_find?_eq_some h
  have hpid : node.pid = pid :=
    of_decide_eq_true (List.find?_some (p := fun node : ProcessNode => decide (node.pid = pid)) h)
  exact ⟨hpid ▸ List.mem_map_of_mem hmem, hmem, hpid⟩

/-- A process is among the children of its parent. -/
theorem edge_of_parent {parent : ℕ}
    (h : (processes.get pid).bind ProcessNode.parentPid = some parent) :
    WorkList.Edge processes.keys (childrenIndex processes) parent pid := by
  obtain ⟨node, hget, hparent⟩ := Option.bind_eq_some_iff.1 h
  obtain ⟨hkey, hmem, hpid⟩ := mem_keys_of_get hget
  refine List.mem_filter.2 ⟨?_, decide_eq_true hkey⟩
  rw [childrenIndex, List.mem_mergeSort, List.mem_map]
  exact ⟨node, List.mem_filter.2 ⟨hmem, decide_eq_true hparent⟩, hpid⟩

/-- A process is found on the way down from each of its ancestors. -/
theorem mem_collectDescendants (h : ancestor processes hops pid = some r) :
    pid ∈ collectDescendants r processes := by
  rw [collectDescendants, WorkList.mem_search_iff]
  induction hops generalizing pid with
  | zero =>
    obtain rfl : pid = r := Option.some.inj h
    exact .refl
  | succ hops ih =>
    obtain ⟨parent, hparent, hup⟩ := Option.bind_eq_some_iff.1 h
    exact (ih hup).tail (edge_of_parent hparent)

/-- A root above a process, or the process itself, has a nearest one at most as far. -/
theorem nearest_exists {i : ℕ} (h : ancestor processes hops pid = some r)
    (hroot : IsRoot sessions processes i r) :
    ∃ n ≤ hops, ∃ j, Nearest sessions processes pid n j := by
  induction hops generalizing pid with
  | zero =>
    obtain rfl : pid = r := Option.some.inj h
    cases hfind : (validRoots sessions processes).find? (fun root => root.2 = pid) with
    | none => exact absurd hroot (find_validRoots_eq_none.1 hfind i)
    | some root => exact ⟨0, le_rfl, root.1, nearest_zero_iff.2 (first_of_find_validRoots hfind)⟩
  | succ hops ih =>
    cases hfind : (validRoots sessions processes).find? (fun root => root.2 = pid) with
    | none =>
      obtain ⟨parent, hparent, hup⟩ := Option.bind_eq_some_iff.1 h
      obtain ⟨n, hn, j, hnearest⟩ := ih hup
      have hpid := find_validRoots_eq_none.1 hfind
      exact ⟨n + 1, Nat.succ_le_succ hn, j,
        (nearest_succ_iff hpid).2 ⟨parent, hparent, hnearest⟩⟩
    | some root =>
      exact ⟨0, Nat.zero_le _, root.1, nearest_zero_iff.2 (first_of_find_validRoots hfind)⟩

theorem mem_keys_of_isRoot {i : ℕ} (h : IsRoot sessions processes i pid) :
    pid ∈ processes.keys := by
  obtain ⟨session, -, rfl, hvalid⟩ := h
  rw [verifyRoot] at hvalid
  cases hget : processes.get session.root.pid with
  | none =>
    rw [hget] at hvalid
    cases hvalid
  | some node => exact (mem_keys_of_get hget).1

/-- Below a root there are only processes of the snapshot. -/
theorem mem_keys_of_ancestor {i : ℕ} (h : ancestor processes hops pid = some r)
    (hroot : IsRoot sessions processes i r) : pid ∈ processes.keys := by
  cases hops with
  | zero =>
    obtain rfl : pid = r := Option.some.inj h
    exact mem_keys_of_isRoot hroot
  | succ hops =>
    obtain ⟨parent, hparent, -⟩ := Option.bind_eq_some_iff.1 h
    obtain ⟨node, hget, -⟩ := Option.bind_eq_some_iff.1 hparent
    exact (mem_keys_of_get hget).1

end Down

/-! ## Attribution -/

/-- A process with its nearest root at the bound has no owner. -/
theorem not_attribution_of_nearest {sessions : List RegisteredSession} {processes : Snapshot}
    {pid i : ℕ} (hpid : pid ∈ processes.keys)
    (hnearest : Nearest sessions processes pid maxParentWalkDepth i) :
    ¬ Attribution sessions processes := by
  intro h
  obtain ⟨-, hops, hless, hother⟩ :=
    ownerOf_eq_some_iff.1 ((h.nearest pid hpid i).2 ⟨_, le_rfl, hnearest⟩)
  exact hless.ne (hother.unique hnearest)

/-- The owners are the sessions of the nearest roots exactly if no nearest root is as many hops away
as a walk may make. -/
theorem attribution_iff (sessions : List RegisteredSession) (processes : Snapshot) :
    Attribution sessions processes ↔
      ∀ pid ∈ processes.keys, ∀ i, ¬ Nearest sessions processes pid maxParentWalkDepth i := by
  constructor
  · exact fun h pid hpid i hnearest => not_attribution_of_nearest hpid hnearest h
  · intro hbound
    have hless : ∀ {pid hops i}, pid ∈ processes.keys → hops ≤ maxParentWalkDepth →
        Nearest sessions processes pid hops i → hops < maxParentWalkDepth := by
      intro pid hops i hpid hle hnearest
      refine lt_of_le_of_ne hle fun heq => hbound pid hpid i ?_
      rwa [heq] at hnearest
    refine ⟨owners_nodup sessions processes, ?_, ?_, ?_⟩
    · intro pid hpid i
      rw [ownerOf_eq_some_iff, and_iff_right hpid]
      constructor
      · rintro ⟨hops, hlt, hnearest⟩
        exact ⟨hops, hlt.le, hnearest⟩
      · rintro ⟨hops, hle, hnearest⟩
        exact ⟨hops, hless hpid hle hnearest, hnearest⟩
    · intro pid i session howner hsession
      obtain ⟨-, hops, -, ⟨r, hr, ⟨found, hfound, rfl, -⟩, -⟩, -⟩ := ownerOf_eq_some_iff.1 howner
      obtain rfl : found = session := Option.some.inj (hfound.symm.trans hsession)
      exact mem_collectDescendants hr
    · intro i session hsession hvalid pid _ hops hle hup
      have hroot : IsRoot sessions processes i session.root.pid := ⟨session, hsession, rfl, hvalid⟩
      have hpid := mem_keys_of_ancestor hup hroot
      obtain ⟨n, hn, j, hnearest⟩ := nearest_exists hup hroot
      refine ⟨j, ownerOf_eq_some_iff.2 ⟨hpid, n, hless hpid (hn.trans hle) hnearest, hnearest⟩,
        .inr ⟨n, hn, ?_⟩⟩
      obtain ⟨⟨r, hr, hroot', -⟩, -⟩ := hnearest
      exact ⟨r, hr, hroot'⟩

/-! ## A long chain -/

/-- Processes of which each started the next one. -/
def chain (n : ℕ) : Snapshot where
  nodes := (List.range (n + 1)).map fun k =>
    ⟨k + 1, if k = 0 then none else some k, 1000⟩
  sorted := by
    rw [List.map_map]
    exact List.pairwise_map.2 (List.pairwise_lt_range.imp Nat.succ_lt_succ)

def chainSession : RegisteredSession :=
  ⟨"s", ⟨1, 1000⟩, .exact, 0⟩

theorem get_chain {n k : ℕ} (h : k ≤ n) :
    (chain n).get (k + 1) = some ⟨k + 1, if k = 0 then none else some k, 1000⟩ := by
  have hfind : (List.range (n + 1)).find? (fun j => j + 1 = k + 1) = some k := by
    rw [List.find?_range_eq_some]
    refine ⟨decide_eq_true rfl, List.mem_range.2 (Nat.lt_succ_of_le h), fun j hj => ?_⟩
    simp only [Nat.succ_inj, Bool.not_eq_true', decide_eq_false_iff_not]
    exact hj.ne
  rw [Snapshot.get, chain, List.find?_map]
  exact congrArg (Option.map _) hfind

theorem isRoot_chain {n i pid : ℕ} (h : IsRoot [chainSession] (chain n) i pid) : pid = 1 := by
  obtain ⟨session, hsession, rfl, -⟩ := h
  obtain rfl : session = chainSession := List.mem_singleton.1 (List.mem_of_getElem? hsession)
  rfl

theorem ancestor_chain {n k hops : ℕ} (hk : k ≤ n) (hhops : hops ≤ k) :
    ancestor (chain n) hops (k + 1) = some (k - hops + 1) := by
  induction hops generalizing k with
  | zero => rfl
  | succ hops ih =>
    obtain ⟨k, rfl⟩ : ∃ m, k = m + 1 := ⟨k - 1, by omega⟩
    rw [ancestor, get_chain hk]
    simp only [Option.bind_some, Nat.succ_ne_zero, if_false]
    rw [ih (by omega) (by omega), Nat.succ_sub_succ]

/-- The last process of a chain is as many hops below the root as a walk may make, and has no
owner. -/
theorem chain_not_attributed : ¬ Attribution [chainSession] (chain maxParentWalkDepth) := by
  have hkey : maxParentWalkDepth + 1 ∈ (chain maxParentWalkDepth).keys :=
    (mem_keys_of_get (get_chain le_rfl)).1
  refine not_attribution_of_nearest hkey (i := 0) ⟨⟨1, ?_, ⟨chainSession, rfl, rfl, ?_⟩, ?_⟩, ?_⟩
  · rw [ancestor_chain le_rfl le_rfl, Nat.sub_self]
  · have hget : (chain maxParentWalkDepth).get chainSession.root.pid =
        some ⟨1, none, 1000⟩ := get_chain (Nat.zero_le _)
    rw [verifyRoot, hget]
    rfl
  · exact fun j hj => absurd hj (Nat.not_lt_zero j)
  · intro n hn r hr j hroot
    rw [ancestor_chain le_rfl hn.le] at hr
    cases hr
    have hone := isRoot_chain hroot
    omega

end Metrics

end LlmNotch
