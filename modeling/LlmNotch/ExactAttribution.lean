import LlmNotch.SessionMetrics
import Mathlib.Algebra.BigOperators.Group.Finset.Basic

/-!
# Exact attribution

The quality of a session's metrics is exact if it was registered as exact, its root is live, no
process below the root belongs to another session and no process of its own has a gap on the way
up to the root (`attribution_eq_exact_iff`). There never is such a gap (`not_treeHasParentGaps`),
and the other test passes over the root itself and over processes without an owner.

So a session that reports exact metrics may own less than the tree below its root : if an earlier
session has the same root and nothing is below it, or if a process is too far below the root for
the walk up. `exact_iff` : otherwise, and if the sums fit their integers, exact means exact.
`shared_root_reports_exact` is the case of two sessions with one process.
-/

namespace LlmNotch

namespace Metrics

/-! ## Below a root -/

section Below

variable {sessions : List RegisteredSession} {processes : Snapshot} {pid hops r i : ℕ}

theorem get_of_mem {node : ProcessNode} (h : node ∈ processes.nodes) :
    processes.get node.pid = some node := by
  cases hget : processes.get node.pid with
  | none =>
    have hne := List.find?_eq_none.1 hget node h
    exact absurd (decide_eq_true rfl) hne
  | some found =>
    obtain ⟨-, hmem, hpid⟩ := mem_keys_of_get hget
    have hinj := List.inj_on_of_nodup_map (processes.sorted.imp Nat.ne_of_lt) hmem h hpid
    rw [hinj]

/-- What is found on the way down has the start among its ancestors. -/
theorem ancestor_of_mem_collectDescendants (h : pid ∈ collectDescendants r processes) :
    ∃ hops, ancestor processes hops pid = some r := by
  rw [collectDescendants, WorkList.mem_search_iff] at h
  induction h with
  | refl => exact ⟨0, rfl⟩
  | @tail parent child _ hedge ih =>
    obtain ⟨hops, hup⟩ := ih
    obtain ⟨hchild, -⟩ := List.mem_filter.1 hedge
    rw [childrenIndex, List.mem_mergeSort, List.mem_map] at hchild
    obtain ⟨node, hnode, rfl⟩ := hchild
    obtain ⟨hmem, hparent⟩ := List.mem_filter.1 hnode
    refine ⟨hops + 1, ?_⟩
    rw [ancestor, get_of_mem hmem, Option.bind_some, of_decide_eq_true hparent]
    exact hup

theorem mem_collectDescendants_iff : pid ∈ collectDescendants r processes ↔
    ∃ hops, ancestor processes hops pid = some r :=
  ⟨ancestor_of_mem_collectDescendants, fun ⟨_, h⟩ => mem_collectDescendants h⟩

theorem mem_ownedBy : pid ∈ ownedBy (assignProcessOwners sessions processes) i ↔
    ownerOf (assignProcessOwners sessions processes) pid = some i := by
  rw [ownerOf_eq_some_iff, ownedBy]
  constructor
  · intro h
    obtain ⟨⟨k, j⟩, hfiltered, rfl⟩ := List.mem_map.1 h
    obtain ⟨hmem, hj⟩ := List.mem_filter.1 hfiltered
    obtain ⟨key, hkey, hpair⟩ := List.mem_filterMap.1 hmem
    obtain rfl : j = i := of_decide_eq_true hj
    obtain ⟨owner, howner, hpair⟩ := Option.map_eq_some_iff.1 hpair
    obtain ⟨rfl, rfl⟩ := Prod.mk.inj hpair
    exact ⟨hkey, (walkUp_eq_some_iff _).1 howner⟩
  · rintro ⟨hkey, hnearest⟩
    have howner : nearestRegisteredOwner pid (validRoots sessions processes) processes = some i :=
      (walkUp_eq_some_iff _).2 hnearest
    refine List.mem_map.2 ⟨(pid, i), List.mem_filter.2 ⟨?_, decide_eq_true rfl⟩, rfl⟩
    exact List.mem_filterMap.2 ⟨pid, hkey, by rw [howner]; rfl⟩

theorem nodup_ownedBy :
    (ownedBy (assignProcessOwners sessions processes) i).Nodup :=
  (owners_nodup sessions processes).sublist (List.filter_sublist.map _)

/-- A process with the root among its ancestors has no gap on the way. -/
theorem gapAbove_eq_false {n : ℕ} (h : ancestor processes (hops + 1) pid = some r) :
    gapAbove r processes n pid = false := by
  induction n generalizing pid hops with
  | zero => rfl
  | succ n ih =>
    obtain ⟨parent, hparent, hup⟩ := Option.bind_eq_some_iff.1 h
    obtain ⟨node, hget, hnode⟩ := Option.bind_eq_some_iff.1 hparent
    simp only [gapAbove, hget, hnode]
    split
    · rfl
    · rename_i hne
      cases hops with
      | zero => exact absurd (Option.some.inj hup) hne
      | succ hops => exact ih hup

end Below

/-! ## What is reported as exact -/

/-- Of the processes below the root, only the root itself may have another session's root as its
nearest one. -/
def Unmixed (sessions : List RegisteredSession) (processes : Snapshot) (i rootPid : ℕ) : Prop :=
  ∀ pid ∈ collectDescendants rootPid processes, pid ≠ rootPid →
    ∀ hops < maxParentWalkDepth, ∀ j, Nearest sessions processes pid hops j → j = i

/-- The session owns all that is below its root, and its sums are those of the tree. -/
structure WholeTree (processes : Measurements) (owners : List (ℕ × ℕ)) (i rootPid : ℕ)
    (tree : TreeMetrics) : Prop where
  owns : ∀ pid ∈ collectDescendants rootPid processes.snapshot, ownerOf owners pid = some i
  rss : tree.rssBytes =
    ∑ pid ∈ collectDescendants rootPid processes.snapshot, rssOf processes pid
  count : tree.processCount = (collectDescendants rootPid processes.snapshot).card

/-- No earlier session has the root, every process below it is within the reach of the walk up,
and the sums fit. -/
structure WithinReach (sessions : List RegisteredSession) (processes : Measurements)
    (i rootPid : ℕ) : Prop where
  first : ∀ j < i, ¬ IsRoot sessions processes.snapshot j rootPid
  near : ∀ pid ∈ collectDescendants rootPid processes.snapshot,
    ∃ hops < maxParentWalkDepth, ancestor processes.snapshot hops pid = some rootPid
  rssFits : ∑ pid ∈ collectDescendants rootPid processes.snapshot, rssOf processes pid < 2 ^ 64
  countFits : (collectDescendants rootPid processes.snapshot).card < 2 ^ 32

section Exact

variable {fp : F64Arithmetic} {sessions : List RegisteredSession} {processes : Measurements}
  {elapsedMs : ℕ} {atMs : ℤ} {cpuReady ioReady : CounterReadiness} {io : IoQuality}
  {session : RegisteredSession} {i : ℕ}

/-- What a session owns has its root as the nearest. -/
theorem ancestor_of_owned {pid : ℕ} (hsession : sessions[i]? = some session)
    (h : ownerOf (assignProcessOwners sessions processes.snapshot) pid = some i) :
    ∃ hops < maxParentWalkDepth, Nearest sessions processes.snapshot pid hops i ∧
      ancestor processes.snapshot hops pid = some session.root.pid := by
  obtain ⟨-, hops, hless, hnearest⟩ := ownerOf_eq_some_iff.1 h
  obtain ⟨r, hr, ⟨found, hfound, rfl, -⟩, -⟩ := hnearest.root
  obtain rfl : found = session := Option.some.inj (hfound.symm.trans hsession)
  exact ⟨hops, hless, hnearest, hr⟩

/-- The test for gaps never finds one. -/
theorem not_treeHasParentGaps (hsession : sessions[i]? = some session) :
    treeHasParentGaps session.root.pid
      (ownedBy (assignProcessOwners sessions processes.snapshot) i) processes.snapshot = false := by
  rw [treeHasParentGaps, List.any_eq_false]
  intro pid hpid hgap
  obtain ⟨hne, hgap⟩ := of_decide_eq_true hgap
  obtain ⟨hops, -, -, hup⟩ := ancestor_of_owned hsession (mem_ownedBy.1 hpid)
  cases hops with
  | zero => exact hne (Option.some.inj hup)
  | succ hops =>
    rw [gapAbove_eq_false hup] at hgap
    cases hgap

theorem treeHasOverlap_eq_false_iff (hroot : IsRoot sessions processes.snapshot i
    session.root.pid) :
    treeHasOverlap i session.root.pid (assignProcessOwners sessions processes.snapshot)
      processes.snapshot = false ↔
      Unmixed sessions processes.snapshot i session.root.pid := by
  rw [treeHasOverlap, decide_eq_false_iff_not]
  constructor
  · intro h pid hpid hne hops hless j hnearest
    obtain ⟨up, hup⟩ := ancestor_of_mem_collectDescendants hpid
    have howner := ownerOf_eq_some_iff.2
      ⟨mem_keys_of_ancestor hup hroot, hops, hless, hnearest⟩
    by_contra hj
    refine h ⟨pid, hpid, hne, ?_⟩
    rw [howner]
    exact decide_eq_true hj
  · rintro h ⟨pid, hpid, hne, hother⟩
    obtain ⟨j, howner, hj⟩ := (Option.any_eq_true _ _).1 hother
    obtain ⟨-, hops, hless, hnearest⟩ := ownerOf_eq_some_iff.1 howner
    exact of_decide_eq_true hj (h pid hpid hne hops hless j hnearest)

/-- Exact is reported for sessions registered as exact with a live root and nothing of another
session below it. -/
theorem attribution_eq_exact_iff (hsession : sessions[i]? = some session) :
    (sessionMetrics fp processes (assignProcessOwners sessions processes.snapshot) elapsedMs atMs
      cpuReady ioReady io session i).quality.attribution = .exact ↔
      session.attribution = .exact ∧ verifyRoot session.root processes.snapshot = .valid ∧
        Unmixed sessions processes.snapshot i session.root.pid := by
  have hgaps : treeHasParentGaps session.root.pid
      (ownedBy (assignProcessOwners sessions processes.snapshot) i) processes.snapshot = false :=
    not_treeHasParentGaps hsession
  unfold sessionMetrics buildQuality
  dsimp only
  cases hstatus : verifyRoot session.root processes.snapshot with
  | missing => simp [buildAttribution]
  | pidReused => simp [buildAttribution]
  | valid =>
    have hroot : IsRoot sessions processes.snapshot i session.root.pid :=
      ⟨session, hsession, rfl, hstatus⟩
    rw [← treeHasOverlap_eq_false_iff hroot, hgaps]
    unfold buildAttribution
    cases treeHasOverlap i session.root.pid (assignProcessOwners sessions processes.snapshot)
      processes.snapshot with
    | true => simp
    | false => cases session.attribution <;> simp

theorem foldl_addProcess_lt {pids : List ℕ} {t : TreeTotals} (h : t.rssBytes < 2 ^ 64) :
    (pids.foldl (addProcess fp processes) t).rssBytes < 2 ^ 64 := by
  induction pids generalizing t with
  | nil => exact h
  | cons pid pids ih =>
    refine ih ?_
    unfold addProcess
    split
    · exact h
    · exact Nat.mod_lt _ (Nat.two_pow_pos 64)

theorem sessionMetrics_rss_lt {owners : List (ℕ × ℕ)} :
    (sessionMetrics fp processes owners elapsedMs atMs cpuReady ioReady io session i).rssBytes <
      2 ^ 64 := by
  have hempty : ({} : TreeTotals).rssBytes < 2 ^ 64 := Nat.two_pow_pos 64
  have htotals : (if verifyRoot session.root processes.snapshot = .valid then
      (ownedBy owners i).foldl (addProcess fp processes) {} else {}).rssBytes < 2 ^ 64 := by
    split
    · exact foldl_addProcess_lt hempty
    · exact hempty
  have hcases : ∀ (c : Prop) [Decidable c] (x : ℕ), x < 2 ^ 64 → (if c then 0 else x) < 2 ^ 64 := by
    intro c _ x hx
    split
    · exact Nat.two_pow_pos 64
    · exact hx
  exact hcases _ _ htotals

/-- Where no other session is below the root, what is missing is the root itself or too far away. -/
theorem owns_iff (hroot : IsRoot sessions processes.snapshot i session.root.pid)
    (hsession : sessions[i]? = some session)
    (hunmixed : Unmixed sessions processes.snapshot i session.root.pid) :
    (∀ pid ∈ collectDescendants session.root.pid processes.snapshot,
      ownerOf (assignProcessOwners sessions processes.snapshot) pid = some i) ↔
      (∀ j < i, ¬ IsRoot sessions processes.snapshot j session.root.pid) ∧
        ∀ pid ∈ collectDescendants session.root.pid processes.snapshot,
          ∃ hops < maxParentWalkDepth,
            ancestor processes.snapshot hops pid = some session.root.pid := by
  have hself : session.root.pid ∈ collectDescendants session.root.pid processes.snapshot :=
    mem_collectDescendants_iff.2 ⟨0, rfl⟩
  constructor
  · intro h
    refine ⟨fun j hj hother => ?_, fun pid hpid => ?_⟩
    · obtain ⟨hops, -, hnearest, -⟩ := ancestor_of_owned hsession (h _ hself)
      cases hops with
      | zero => exact (nearest_zero_iff.1 hnearest).2 j hj hother
      | succ hops => exact hnearest.none_below 0 (Nat.succ_pos hops) _ rfl i hroot
    · obtain ⟨hops, hless, -, hup⟩ := ancestor_of_owned hsession (h pid hpid)
      exact ⟨hops, hless, hup⟩
  · rintro ⟨hfirst, hnear⟩ pid hpid
    obtain ⟨hops, hless, hup⟩ := hnear pid hpid
    have hkey := mem_keys_of_ancestor hup hroot
    by_cases hself : pid = session.root.pid
    · refine ownerOf_eq_some_iff.2 ⟨hkey, 0, Nat.zero_lt_of_lt hless, ?_⟩
      rw [hself]
      exact nearest_zero_iff.2 ⟨hroot, hfirst⟩
    · obtain ⟨n, hn, j, hnearest⟩ := nearest_exists hup hroot
      have hlt := hn.trans_lt hless
      obtain rfl := hunmixed pid hpid hself n hlt j hnearest
      exact ownerOf_eq_some_iff.2 ⟨hkey, n, hlt, hnearest⟩

theorem ownedBy_toFinset (hsession : sessions[i]? = some session)
    (howns : ∀ pid ∈ collectDescendants session.root.pid processes.snapshot,
      ownerOf (assignProcessOwners sessions processes.snapshot) pid = some i) :
    (ownedBy (assignProcessOwners sessions processes.snapshot) i).toFinset =
      collectDescendants session.root.pid processes.snapshot := by
  ext pid
  rw [List.mem_toFinset, mem_ownedBy]
  constructor
  · intro h
    obtain ⟨hops, -, -, hup⟩ := ancestor_of_owned hsession h
    exact mem_collectDescendants hup
  · exact howns pid

theorem wholeTree_iff (hroot : IsRoot sessions processes.snapshot i session.root.pid)
    (hsession : sessions[i]? = some session)
    (hvalid : verifyRoot session.root processes.snapshot = .valid)
    (hunmixed : Unmixed sessions processes.snapshot i session.root.pid) :
    WholeTree processes (assignProcessOwners sessions processes.snapshot) i session.root.pid
      (sessionMetrics fp processes (assignProcessOwners sessions processes.snapshot) elapsedMs atMs
        cpuReady ioReady io session i) ↔
      WithinReach sessions processes i session.root.pid := by
  have howns := owns_iff hroot hsession hunmixed
  constructor
  · rintro ⟨hall, hrss, hcount⟩
    obtain ⟨hfirst, hnear⟩ := howns.1 hall
    exact ⟨hfirst, hnear, hrss ▸ sessionMetrics_rss_lt,
      hcount ▸ Nat.mod_lt _ (Nat.two_pow_pos 32)⟩
  · rintro ⟨hfirst, hnear, hrss, hcount⟩
    have hall := howns.2 ⟨hfirst, hnear⟩
    have hset := ownedBy_toFinset hsession hall
    have hsum : rssSum processes (ownedBy (assignProcessOwners sessions processes.snapshot) i) =
        ∑ pid ∈ collectDescendants session.root.pid processes.snapshot, rssOf processes pid := by
      rw [← hset, List.sum_toFinset _ nodup_ownedBy]
      rfl
    have hcard : (ownedBy (assignProcessOwners sessions processes.snapshot) i).length =
        (collectDescendants session.root.pid processes.snapshot).card := by
      rw [← hset, List.toFinset_card_of_nodup nodup_ownedBy]
    refine ⟨hall, ?_, ?_⟩
    · rw [sessionMetrics_rss (fun h => absurd hvalid h) (hsum ▸ hrss), hsum]
    · rw [sessionMetrics_processCount, hcard]
      exact Nat.mod_eq_of_lt hcount

end Exact

/-! ## All sessions -/

theorem lookup_foldl_insert_of_notMem {α β : Type*} [DecidableEq α] {xs : List (α × β)}
    {m : Dict α β} {k : α} (h : k ∉ xs.map Prod.fst) :
    (xs.foldl (fun m x => m.insert x.1 x.2) m).lookup k = m.lookup k := by
  induction xs generalizing m with
  | nil => rfl
  | cons x xs ih =>
    obtain ⟨hne, hrest⟩ := not_or.1 (mt List.mem_cons.2 h)
    rw [List.foldl_cons, ih hrest, Dict.lookup_insert_ite, if_neg hne]

theorem lookup_foldl_insert {α β : Type*} [DecidableEq α] {xs : List (α × β)} {m : Dict α β}
    (hnodup : (xs.map Prod.fst).Nodup) {x : α × β} (hx : x ∈ xs) :
    (xs.foldl (fun m x => m.insert x.1 x.2) m).lookup x.1 = some x.2 := by
  induction xs generalizing m with
  | nil => cases hx
  | cons y xs ih =>
    obtain ⟨hy, hrest⟩ := List.nodup_cons.1 hnodup
    rw [List.foldl_cons]
    rcases List.mem_cons.1 hx with rfl | hx
    · rw [lookup_foldl_insert_of_notMem hy, Dict.lookup_insert_ite, if_pos rfl]
    · exact ih hrest hx

section Sessions

variable {fp : F64Arithmetic} {sessions : List RegisteredSession} {processes : Measurements}
  {elapsedMs : ℕ} {atMs : ℤ} {cpuReady ioReady : CounterReadiness} {io : IoQuality}
  {session : RegisteredSession} {i : ℕ}

theorem lookup_computeSessionMetrics (hdistinct : (sessions.map (·.sessionId)).Nodup)
    (hsession : sessions[i]? = some session) :
    (computeSessionMetrics fp sessions processes elapsedMs atMs cpuReady ioReady io).1.lookup
      session.sessionId = some (sessionMetrics fp processes
        (assignProcessOwners sessions processes.snapshot) elapsedMs atMs cpuReady ioReady io
        session i) := by
  have hmem : (session, i) ∈ sessions.zipIdx := List.mem_zipIdx_iff_getElem?.2 hsession
  have hlookup := lookup_foldl_insert (m := (∅ : Dict String TreeMetrics))
    (sessionMetrics_ids_nodup (f := fun s => sessionMetrics fp processes
      (assignProcessOwners sessions processes.snapshot) elapsedMs atMs cpuReady ioReady io s.1 s.2)
      hdistinct) (List.mem_map_of_mem hmem)
  rw [List.foldl_map] at hlookup
  exact hlookup

/-- What is reported as exact is the whole tree, exactly if every tree that is registered as exact
and has no other session below it is within reach. -/
theorem exact_iff (hdistinct : (sessions.map RegisteredSession.sessionId).Nodup) :
    let pass := computeSessionMetrics fp sessions processes elapsedMs atMs cpuReady ioReady io
    (∀ i session tree, sessions[i]? = some session →
      pass.1.lookup session.sessionId = some tree → tree.quality.attribution = .exact →
      WholeTree processes pass.2 i session.root.pid tree) ↔
    ∀ i session, sessions[i]? = some session → session.attribution = .exact →
      verifyRoot session.root processes.snapshot = .valid →
      Unmixed sessions processes.snapshot i session.root.pid →
      WithinReach sessions processes i session.root.pid := by
  intro pass
  constructor
  · intro h i session hsession hexact hvalid hunmixed
    have htree := h i session _ hsession (lookup_computeSessionMetrics hdistinct hsession)
      ((attribution_eq_exact_iff hsession).2 ⟨hexact, hvalid, hunmixed⟩)
    exact (wholeTree_iff ⟨session, hsession, rfl, hvalid⟩ hsession hvalid hunmixed).1 htree
  · intro h i session tree hsession hlookup hreported
    obtain rfl := Option.some.inj
      ((lookup_computeSessionMetrics hdistinct hsession).symm.trans hlookup)
    obtain ⟨hexact, hvalid, hunmixed⟩ := (attribution_eq_exact_iff hsession).1 hreported
    exact (wholeTree_iff ⟨session, hsession, rfl, hvalid⟩ hsession hvalid hunmixed).2
      (h i session hsession hexact hvalid hunmixed)

end Sessions

/-! ## One process, two sessions -/

def twin : RegisteredSession :=
  { starSession with sessionId := "t" }

/-- Two sessions registered for the same process. -/
def twins : List RegisteredSession :=
  [starSession, twin]

theorem exact_iff_family :
    let pass := computeSessionMetrics zeroArithmetic familySessions family 1000 2000 .ready
      .ready .disk
    (∀ i session tree, familySessions[i]? = some session →
      pass.1.lookup session.sessionId = some tree → tree.quality.attribution = .exact →
      WholeTree family pass.2 i session.root.pid tree) ↔
    ∀ i session, familySessions[i]? = some session → session.attribution = .exact →
      verifyRoot session.root family.snapshot = .valid →
      Unmixed familySessions family.snapshot i session.root.pid →
      WithinReach familySessions family i session.root.pid :=
  exact_iff (by decide)

theorem verifyRoot_star {n : ℕ} (hn : 0 < n) :
    verifyRoot starSession.root (star n).snapshot = .valid := by
  rw [verifyRoot, show starSession.root.pid = 0 from rfl, get_star hn]
  rfl

/-- The second session reports exact metrics and owns nothing. -/
theorem shared_root_reports_exact :
    let pass := computeSessionMetrics zeroArithmetic twins (star 1) 1000 2000 .ready .ready .disk
    ∃ session tree, twins[1]? = some session ∧
      pass.1.lookup session.sessionId = some tree ∧ tree.quality.attribution = .exact ∧
      ¬ WholeTree (star 1) pass.2 1 session.root.pid tree := by
  intro pass
  have hdistinct : (twins.map (·.sessionId)).Nodup := by decide
  have hsession : twins[1]? = some twin := rfl
  have hfirst : IsRoot twins (star 1).snapshot 0 twin.root.pid :=
    ⟨starSession, rfl, rfl, verifyRoot_star Nat.one_pos⟩
  have hroot : IsRoot twins (star 1).snapshot 1 twin.root.pid :=
    ⟨twin, rfl, rfl, verifyRoot_star Nat.one_pos⟩
  have hunmixed : Unmixed twins (star 1).snapshot 1 twin.root.pid := by
    intro pid hpid hne
    obtain ⟨hops, hup⟩ := ancestor_of_mem_collectDescendants hpid
    have hkey := mem_keys_of_ancestor hup hroot
    rw [keys_star] at hkey
    exact absurd (List.mem_singleton.1 hkey) hne
  refine ⟨twin, _, hsession, lookup_computeSessionMetrics hdistinct hsession,
    (attribution_eq_exact_iff hsession).2 ⟨rfl, verifyRoot_star Nat.one_pos, hunmixed⟩, fun h => ?_⟩
  exact ((owns_iff hroot hsession hunmixed).1 h.owns).1 0 Nat.one_pos hfirst

end Metrics

end LlmNotch
