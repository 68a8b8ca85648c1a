import LlmNotch.EventSequences

/-!
# Memory and store in step

Every operation writes a session to the registry and to the table, and an event to both event
lists, with statements of its own. `InStep cfg due w` says that the two sides agree : the
sessions of the registry are the rows of the table but for the session `due`, the table has the
newest event of every session, and a restart can read all of it.

The changes an operation is made of keep this (`InStep.assign`, `InStep.store`, ...) : an
assignment makes its session due, and persisting the session settles it.
-/

namespace LlmNotch

open AppCore

/-! ## Agreement -/

/-- The columns an update of a row does not write. -/
structure SameOrigin (row s : AgentSession) : Prop where
  source : row.source = s.source
  externalSessionId : row.externalSessionId = s.externalSessionId
  startedAtMs : row.startedAtMs = s.startedAtMs

theorem SameOrigin.merge {row s : AgentSession} (h : SameOrigin row s) (hid : row.id = s.id) :
    Repository.mergeSession row s = s := by
  unfold Repository.mergeSession
  rw [h.source, h.externalSessionId, h.startedAtMs, hid]

/-- Reading the stored text of the sample gives the sample. -/
def Readable (cfg : CoreConfig) (metric : Option MetricSample) : Prop :=
  metric.bind cfg.reloadMetric = metric

/-- A restart inserts the session as it is. -/
structure Restorable (cfg : CoreConfig) (s : AgentSession) : Prop where
  metric : Readable cfg s.latestMetric
  external : validateExternalSessionId s.externalSessionId = .ok ()

theorem Restorable.reload {cfg : CoreConfig} {s : AgentSession} (h : Restorable cfg s) :
    Repository.reload cfg s = s := by
  have hmetric : s.latestMetric.bind cfg.reloadMetric = s.latestMetric := h.metric
  unfold Repository.reload
  rw [hmetric]

/-- The sessions of the registry are the rows of the table, but for the one that is due. -/
structure SessionsAgree (cfg : CoreConfig) (due : Option String) (w : World) : Prop where
  rows : ∀ id, due ≠ some id → ∀ s,
    w.registry.sessions.lookup id = some s ↔ s ∈ w.db.sessions ∧ s.id = id
  origin : ∀ row ∈ w.db.sessions, ∀ s,
    w.registry.sessions.lookup row.id = some s → SameOrigin row s
  restorable : ∀ {id s}, w.registry.sessions.lookup id = some s → Restorable cfg s

/-- The table has the newest event of every session, and no more events than the registry may
have. -/
structure EventsAgree (w : World) : Prop where
  ids : (w.db.events.map (·.id)).Nodup
  sequences : (w.db.events.map fun e => (e.sessionId, e.sequence)).Nodup
  positive : ∀ e ∈ w.db.events, 0 < e.sequence
  capped : ∀ id, (Repository.sessionEvents w.db id).length ≤ maxEventsPerSession
  newest : ∀ id, w.registry.nextEventSequence id = 1 ∨
    ∃ e ∈ w.db.events, e.sessionId = id ∧ e.sequence + 1 = w.registry.nextEventSequence id

structure InStep (cfg : CoreConfig) (due : Option String) (w : World) : Prop where
  sequences : SequencesOk w
  sessions : SessionsAgree cfg due w
  events : EventsAgree w

theorem EventsAgree.congr {w w' : World} (h : EventsAgree w)
    (hr : w'.registry.events = w.registry.events) (hdb : w'.db.events = w.db.events) :
    EventsAgree w' := by
  have hnext : ∀ id, w'.registry.nextEventSequence id = w.registry.nextEventSequence id := by
    intro id
    simp only [SessionRegistry.nextEventSequence, SessionRegistry.eventsFor, hr]
  constructor
  · rw [hdb]
    exact h.ids
  · rw [hdb]
    exact h.sequences
  · rw [hdb]
    exact h.positive
  · intro id
    rw [Repository.sessionEvents, hdb]
    exact h.capped id
  · intro id
    rw [hdb, hnext]
    exact h.newest id

namespace Repository

/-- No session has more events than before. -/
theorem length_sessionEvents_le {db db' : Database} (h : db'.events.Sublist db.events)
    (sessionId : String) :
    (sessionEvents db' sessionId).length ≤ (sessionEvents db sessionId).length := by
  rw [sessionEvents, sessionEvents, List.length_insertionSort, List.length_insertionSort]
  exact (h.filter _).length_le

end Repository

/-- The events of a session go on both sides. -/
theorem EventsAgree.remove {w : World} {r : SessionRegistry} (h : EventsAgree w) (id : String)
    (faults : List Bool) (hr : r.events = w.registry.events.erase id) :
    EventsAgree ((w.setStore ⟨Repository.withoutSession id w.db, faults⟩).setRegistry r) := by
  have hsub : (Repository.withoutSession id w.db).events.Sublist w.db.events :=
    List.filter_sublist
  constructor
  · exact h.ids.sublist (hsub.map _)
  · exact h.sequences.sublist (hsub.map _)
  · intro e he
    exact h.positive e (hsub.subset he)
  · intro k
    exact (Repository.length_sessionEvents_le hsub k).trans (h.capped k)
  · intro k
    have hnext : r.nextEventSequence k =
        if k = id then 1 else w.registry.nextEventSequence k := by
      unfold SessionRegistry.nextEventSequence SessionRegistry.eventsFor
      rw [hr, Dict.lookup_erase_ite]
      by_cases hk : k = id
      · rw [if_pos hk, if_pos hk]
        rfl
      · rw [if_neg hk, if_neg hk]
    show r.nextEventSequence k = 1 ∨ ∃ e ∈ (Repository.withoutSession id w.db).events, _
    rw [hnext]
    split
    · exact Or.inl rfl
    · rename_i hk
      refine (h.newest k).imp_right ?_
      rintro ⟨e, he, hid, hlast⟩
      refine ⟨e, List.mem_filter.2 ⟨he, ?_⟩, hid, ?_⟩
      · simpa [hid] using hk
      · rw [World.registry, World.setRegistry_inner_registry, hnext, if_neg hk]
        exact hlast

namespace InStep

variable {cfg : CoreConfig} {due : Option String} {w w' : World}

/-- Everything else may change. -/
theorem congr (h : InStep cfg due w) (hr : SameRegistry w.registry w'.registry)
    (hsessions : w'.db.sessions = w.db.sessions) (hevents : w'.db.events = w.db.events) :
    InStep cfg due w' := by
  refine ⟨h.sequences.shrink hr ⟨by rw [hsessions], ?_⟩, ⟨?_, ?_, ?_⟩,
    h.events.congr hr.events hevents⟩
  · rw [hevents]
  · intro id hid s
    rw [hr.sessions, hsessions]
    exact h.sessions.rows id hid s
  · rw [hr.sessions, hsessions]
    exact h.sessions.origin
  · intro id s hs
    rw [hr.sessions] at hs
    exact h.sessions.restorable hs

theorem push (h : InStep cfg due w) (p : StreamPayload) : InStep cfg due (w.push p) :=
  h.congr ⟨rfl, rfl, rfl⟩ rfl rfl

theorem flush (h : InStep cfg due w) (env : Env) : InStep cfg due (w.flush env) := by
  refine h.congr ?_ ?_ ?_
  · rw [registry_flush]
    exact SameRegistry.refl _
  · show (w.flush env).store.db.sessions = _
    rw [store_flush]
  · show (w.flush env).store.db.events = _
    rw [store_flush]

/-- A session may be called due although it is not. -/
theorem weaken (h : InStep cfg none w) (due : Option String) : InStep cfg due w :=
  ⟨h.sequences, ⟨fun id _ => h.sessions.rows id (by simp), h.sessions.origin,
    h.sessions.restorable⟩, h.events⟩

variable {id : String} {s t : AgentSession}

/-- Putting a successor in the place of a session makes it due. -/
theorem replace (h : InStep cfg (some id) w) (hs : w.registry.sessions.lookup id = some s)
    (ht : Succeeds s t) (hmetric : Readable cfg t.latestMetric) (hsequences : SequencesOk w')
    (hlookup : ∀ k, w'.registry.sessions.lookup k =
      if k = id then some t else w.registry.sessions.lookup k)
    (hevents : w'.registry.events = w.registry.events) (hdb : w'.db = w.db) :
    InStep cfg (some id) w' := by
  refine ⟨hsequences, ⟨?_, ?_, ?_⟩, h.events.congr hevents (by rw [hdb])⟩
  · intro k hk u
    have hne : k ≠ id := fun he => hk (by rw [he])
    rw [hlookup, if_neg hne, hdb]
    exact h.sessions.rows k hk u
  · intro row hrow u hu
    rw [hdb] at hrow
    rw [hlookup] at hu
    split at hu
    · rename_i hid
      cases hu
      have horigin := h.sessions.origin row hrow s (by rw [hid]; exact hs)
      exact ⟨horigin.source.trans ht.source.symm,
        horigin.externalSessionId.trans ht.externalSessionId.symm,
        horigin.startedAtMs.trans ht.startedAtMs.symm⟩
    · exact h.sessions.origin row hrow u hu
  · intro k u hu
    rw [hlookup] at hu
    split at hu
    · cases hu
      refine ⟨hmetric, ?_⟩
      rw [ht.externalSessionId]
      exact (h.sessions.restorable hs).external
    · exact h.sessions.restorable hu

theorem assign (h : InStep cfg (some id) w) (hs : w.registry.sessions.lookup id = some s)
    (ht : Succeeds s t) (hmetric : Readable cfg t.latestMetric) :
    InStep cfg (some id) (w.withSession id t) := by
  have hchange : Change False True w (w.withSession id t) := .assign hs ht
  refine h.replace hs ht hmetric (hchange.sequencesOk h.sequences) (fun k => ?_) rfl rfl
  show (w.registry.sessions.adjust id fun _ => t).lookup k = _
  rw [Dict.lookup_adjust, hs]
  rfl

theorem reinsert (h : InStep cfg (some t.id) w) (hs : w.registry.sessions.lookup t.id = some s)
    (ht : Succeeds s t) (hmetric : Readable cfg t.latestMetric) :
    InStep cfg (some t.id) (w.setRegistry { w.registry with
      externalIndex := w.registry.externalIndex.insert t.key t.id
      sessions := w.registry.sessions.insert t.id t }) := by
  have hlookup : ∀ k, (w.registry.sessions.insert t.id t).lookup k =
      if k = t.id then some t else w.registry.sessions.lookup k :=
    fun k => Dict.lookup_insert_ite _ k _ _
  refine h.replace hs ht hmetric (h.sequences.setSessions (h.sequences.keyed.insert rfl ?_) ?_)
    hlookup rfl rfl
  · rw [Dict.size_insert_of_lookup (Option.isSome_iff_exists.2 ⟨s, hs⟩)]
    exact h.sequences.keyed.bounded
  · intro id hid
    rw [hlookup]
    split
    · rfl
    · exact hid

/-- Persisting the session that is due. -/
theorem store {store : Store} (h : InStep cfg (some id) w)
    (hs : w.registry.sessions.lookup id = some s)
    (hdb : Repository.upsertSessionSql s w.db = .ok ((), store.db)) :
    InStep cfg none (w.setStore store) := by
  have hid : s.id = id := h.sequences.keyed.id hs
  have hrows := (Repository.upsertSessionSql_ok hdb).1
  have hmem : ∀ row, row ∈ store.db.sessions ↔ row = s ∨ row ∈ w.db.sessions ∧ row.id ≠ s.id := by
    intro row
    rw [hrows]
    refine mem_upsertRow fun y hy hk => ?_
    exact (h.sessions.origin y hy s (by rw [hk, hid]; exact hs)).merge hk
  have hsequences : SequencesOk (w.setStore store) := h.sequences.storeSession hs hdb
  refine ⟨hsequences, ⟨?_, ?_, h.sessions.restorable⟩,
    h.events.congr rfl (show store.db.events = _ by rw [hrows])⟩
  · intro k _ u
    show w.registry.sessions.lookup k = some u ↔ u ∈ store.db.sessions ∧ u.id = k
    rw [hmem]
    by_cases hk : k = id
    · rw [hk, hs, Option.some.injEq]
      constructor
      · rintro rfl
        exact ⟨Or.inl rfl, hid⟩
      · rintro ⟨rfl | ⟨-, hne⟩, hu⟩
        · rfl
        · exact absurd (hu.trans hid.symm) hne
    · rw [h.sessions.rows k (fun he => hk (Option.some.inj he).symm) u]
      constructor
      · rintro ⟨hu, huk⟩
        exact ⟨Or.inr ⟨hu, fun he => hk (by rw [← huk, he, hid])⟩, huk⟩
      · rintro ⟨rfl | ⟨hu, -⟩, huk⟩
        · exact absurd (huk.symm.trans hid) hk
        · exact ⟨hu, huk⟩
  · intro row hrow u hu
    have hu' : w.registry.sessions.lookup row.id = some u := hu
    rcases (hmem row).1 hrow with rfl | ⟨hold, -⟩
    · rw [hid, hs] at hu'
      cases hu'
      exact ⟨rfl, rfl, rfl⟩
    · exact h.sessions.origin row hold u hu'

/-- A new session is due until it is persisted. -/
theorem insert (h : InStep cfg none w) (hfree : w.registry.sessions.lookup s.id = none)
    (hlen : w.registry.len < maxSessions) (hs : Restorable cfg s) :
    InStep cfg (some s.id) (w.setRegistry { w.registry with
      externalIndex := w.registry.externalIndex.insert s.key s.id
      sessions := w.registry.sessions.insert s.id s }) := by
  have hlookup : ∀ k, (w.registry.sessions.insert s.id s).lookup k =
      if k = s.id then some s else w.registry.sessions.lookup k :=
    fun k => Dict.lookup_insert_ite _ k _ _
  have hrow : ∀ row ∈ w.db.sessions, row.id ≠ s.id := by
    intro row hmem hid
    have hstored := (h.sessions.rows s.id (by simp) row).2 ⟨hmem, hid⟩
    rw [hfree] at hstored
    cases hstored
  refine ⟨h.sequences.setSessions (h.sequences.keyed.insert rfl ?_) ?_, ⟨?_, ?_, ?_⟩,
    h.events.congr rfl rfl⟩
  · have hsize := Dict.size_insert_le s.id s w.registry.sessions
    have hroom : w.registry.sessions.size < maxSessions := hlen
    omega
  · intro id hid
    rw [hlookup]
    split
    · rfl
    · exact hid
  · intro k hk t
    have hne : k ≠ s.id := fun he => hk (by rw [he])
    show (w.registry.sessions.insert s.id s).lookup k = some t ↔ _
    rw [hlookup, if_neg hne]
    exact h.sessions.rows k (by simp) t
  · intro row hmem t ht
    have ht' : (w.registry.sessions.insert s.id s).lookup row.id = some t := ht
    rw [hlookup, if_neg (hrow row hmem)] at ht'
    exact h.sessions.origin row hmem t ht'
  · intro id t ht
    have ht' : (w.registry.sessions.insert s.id s).lookup id = some t := ht
    rw [hlookup] at ht'
    split at ht'
    · cases ht'
      exact hs
    · exact h.sessions.restorable ht'

/-- A session is removed on both sides, with its events. -/
theorem remove {faults : List Bool} (h : InStep cfg none w)
    (hs : w.registry.sessions.lookup id = some s) :
    InStep cfg none ((w.setStore ⟨Repository.withoutSession id w.db, faults⟩).setRegistry
      { w.registry with
        sessions := w.registry.sessions.erase id
        externalIndex := w.registry.externalIndex.erase s.key
        events := w.registry.events.erase id }) := by
  have hrow : ∀ row, row ∈ (Repository.withoutSession id w.db).sessions ↔
      row ∈ w.db.sessions ∧ row.id ≠ id := by
    intro row
    simp [Repository.withoutSession]
  have hevent : ∀ e, e ∈ (Repository.withoutSession id w.db).events ↔
      e ∈ w.db.events ∧ e.sessionId ≠ id := by
    intro e
    simp [Repository.withoutSession]
  have hrows : Change False True w
      (w.setStore ⟨Repository.withoutSession id w.db, faults⟩) := .removeRows rfl
  have hremove : Change False True (w.setStore ⟨Repository.withoutSession id w.db, faults⟩) _ :=
    .remove hs (fun row hmem => ((hrow row).1 hmem).2) fun e hmem => ((hevent e).1 hmem).2
  refine ⟨hremove.sequencesOk (hrows.sequencesOk h.sequences), ⟨?_, ?_, ?_⟩, ?_⟩
  · intro k _ t
    show (w.registry.sessions.erase id).lookup k = some t ↔
      t ∈ (Repository.withoutSession id w.db).sessions ∧ t.id = k
    rw [Dict.lookup_erase_ite, hrow]
    split
    · rename_i hk
      constructor
      · intro hnone
        cases hnone
      · rintro ⟨⟨-, hne⟩, ht⟩
        exact absurd (ht.trans hk) hne
    · rename_i hk
      rw [h.sessions.rows k (by simp) t]
      constructor
      · rintro ⟨ht, rfl⟩
        exact ⟨⟨ht, hk⟩, rfl⟩
      · rintro ⟨⟨ht, -⟩, hid⟩
        exact ⟨ht, hid⟩
  · intro row hmem t ht
    have ht' : (w.registry.sessions.erase id).lookup row.id = some t := ht
    obtain ⟨hold, hne⟩ := (hrow row).1 hmem
    rw [Dict.lookup_erase_ite, if_neg hne] at ht'
    exact h.sessions.origin row hold t ht'
  · intro k t ht
    have ht' : (w.registry.sessions.erase id).lookup k = some t := ht
    rw [Dict.lookup_erase_ite] at ht'
    split at ht'
    · cases ht'
    · exact h.sessions.restorable ht'
  · exact h.events.remove id faults rfl

end InStep

/-! ## Appending an event -/

namespace Repository

/-- A database without the oldest events of a session beyond the limit. -/
def trimmed (sessionId : String) (db : Database) : Database :=
  let own := sessionEvents db sessionId
  if maxEventsPerSession < own.length then
    deleteEvents ((own.take (own.length - maxEventsPerSession)).map (·.id)) db
  else db

variable {sessionId : String} {db : Database}

theorem wp_trimSessionEvents {s : Store} {Q : Unit → Store → Prop} {E : Fault → Store → Prop}
    (hQ : ∀ store, store.db = trimmed sessionId s.db → Q () store) (hE : ∀ f store, E f store) :
    wp (trimSessionEvents sessionId) s Q E := by
  unfold trimSessionEvents
  rw [wp_bind]
  refine wp_query (fun t ht => ?_) hE
  rw [wp_onlyIf]
  constructor
  · intro hlong
    refine wp_statement (fun _ db hdb => hQ _ ?_) fun _ _ => hE _ _
    obtain rfl := (Prod.mk.inj (Except.ok.inj hdb)).2
    have hlong' : maxEventsPerSession < (sessionEvents s.db sessionId).length := by
      simpa using hlong
    simp only [trimmed, if_pos hlong', ht]
  · intro hshort
    refine hQ t ?_
    have hshort' : ¬ maxEventsPerSession < (sessionEvents s.db sessionId).length := by
      simpa using hshort
    rw [trimmed, if_neg hshort', ht]

theorem mem_sessionEvents {e : SessionEvent} :
    e ∈ sessionEvents db sessionId ↔ e ∈ db.events ∧ e.sessionId = sessionId := by
  simp [sessionEvents, List.mem_insertionSort]

theorem sessionEvents_sorted (db : Database) (sessionId : String) :
    (sessionEvents db sessionId).Pairwise fun a b => a.sequence ≤ b.sequence := by
  have : Std.Total fun a b : SessionEvent => a.sequence ≤ b.sequence :=
    ⟨fun a b => le_total a.sequence b.sequence⟩
  have : IsTrans SessionEvent fun a b => a.sequence ≤ b.sequence :=
    ⟨fun _ _ _ hab hbc => le_trans hab hbc⟩
  exact List.pairwise_insertionSort _ _

theorem sessionEvents_perm (db : Database) (sessionId : String) :
    (sessionEvents db sessionId).Perm (db.events.filter (·.sessionId = sessionId)) :=
  List.perm_insertionSort _ _

theorem sessionEvents_nodup (h : (db.events.map (·.id)).Nodup) (sessionId : String) :
    (sessionEvents db sessionId).Nodup :=
  (sessionEvents_perm db sessionId).nodup_iff.2 ((List.Nodup.of_map _ h).filter _)

theorem trimmed_sessions (sessionId : String) (db : Database) :
    (trimmed sessionId db).sessions = db.sessions := by
  unfold trimmed
  dsimp only
  split <;> rfl

theorem trimmed_sublist (sessionId : String) (db : Database) :
    (trimmed sessionId db).events.Sublist db.events := by
  unfold trimmed
  dsimp only
  split
  · exact List.filter_sublist
  · exact List.Sublist.refl _

theorem trimmed_capped (sessionId : String) (db : Database) :
    (sessionEvents (trimmed sessionId db) sessionId).length ≤ maxEventsPerSession := by
  unfold trimmed
  dsimp only
  set own := sessionEvents db sessionId with hown
  split
  · rename_i hlong
    set n := own.length - maxEventsPerSession with hn
    set keep : SessionEvent → Bool := fun e => !((own.take n).map (·.id)).contains e.id with hkeep
    have hfiltered : (sessionEvents (deleteEvents ((own.take n).map (·.id)) db) sessionId).length =
        (own.filter keep).length := by
      rw [sessionEvents, List.length_insertionSort, deleteEvents]
      simp only
      rw [List.filter_comm]
      exact ((sessionEvents_perm db sessionId).filter keep).symm.length_eq
    have hgone : (own.take n).filter keep = [] := by
      rw [List.filter_eq_nil_iff]
      intro e he
      have hmem : e.id ∈ (own.take n).map (·.id) := List.mem_map_of_mem he
      simpa [hkeep] using hmem
    have hsplit : own.filter keep = (own.drop n).filter keep := by
      rw [← List.take_append_drop n own, List.filter_append]
      simp only [List.take_append_drop]
      rw [hgone, List.nil_append]
    rw [hfiltered, hsplit]
    have hle := List.length_filter_le keep (own.drop n)
    rw [List.length_drop] at hle
    omega
  · rename_i hshort
    exact Nat.le_of_not_lt hshort

/-- The newest event of a session stays. -/
theorem mem_trimmed {e : SessionEvent} (hids : (db.events.map (·.id)).Nodup)
    (hsequences : (db.events.map fun e => (e.sessionId, e.sequence)).Nodup) (he : e ∈ db.events)
    (hnewest : ∀ o ∈ db.events, o.sessionId = e.sessionId → o.sequence ≤ e.sequence) :
    e ∈ (trimmed sessionId db).events := by
  unfold trimmed
  dsimp only
  set own := sessionEvents db sessionId with hown
  split
  · rename_i hlong
    set n := own.length - maxEventsPerSession with hn
    refine List.mem_filter.2 ⟨he, ?_⟩
    rw [Bool.not_eq_true', List.contains_eq_mem, decide_eq_false_iff_not]
    intro hdeleted
    obtain ⟨o, ho, hoe⟩ := List.mem_map.1 hdeleted
    have hoown : o ∈ own := List.mem_of_mem_take ho
    obtain rfl : o = e :=
      List.inj_on_of_nodup_map hids (mem_sessionEvents.1 hoown).1 he hoe
    have hpos : 0 < maxEventsPerSession := by decide
    have hne : own.drop n ≠ [] := by
      rw [ne_eq, List.drop_eq_nil_iff]
      omega
    -- some event stays, and it is not older
    obtain ⟨x, hx⟩ := List.exists_mem_of_ne_nil _ hne
    have hxown : x ∈ own := List.mem_of_mem_drop hx
    have hsorted := sessionEvents_sorted db sessionId
    rw [← hown, ← List.take_append_drop n own] at hsorted
    have hle : o.sequence ≤ x.sequence := (List.pairwise_append.1 hsorted).2.2 o ho x hx
    have hsession : x.sessionId = o.sessionId :=
      (mem_sessionEvents.1 hxown).2.trans (mem_sessionEvents.1 hoown).2.symm
    have hge := hnewest x (mem_sessionEvents.1 hxown).1 hsession
    obtain rfl : x = o := List.inj_on_of_nodup_map hsequences (mem_sessionEvents.1 hxown).1 he
      (by rw [hsession, le_antisymm hge hle])
    exact List.disjoint_take_drop (sessionEvents_nodup hids sessionId) le_rfl ho hx
  · exact he

end Repository

/-- The next event of a session is stored on both sides. -/
theorem EventsAgree.append {w : World} {e : SessionEvent} {store : Store} {db : Database}
    (h : EventsAgree w) (hbelow : Below w)
    (he : e.sequence = w.registry.nextEventSequence e.sessionId)
    (hinsert : Repository.insertEventSql e w.db = .ok ((), db))
    (htrim : store.db = Repository.trimmed e.sessionId db) :
    EventsAgree ((w.setRegistry (w.registry.pushEvent e)).setStore store) := by
  obtain ⟨hdb, -⟩ := Repository.insertEventSql_ok hinsert
  obtain ⟨hid, hsequence⟩ := Repository.insertEventSql_fresh hinsert
  have hevents : db.events = w.db.events ++ [e] := by rw [hdb]
  have hids : (db.events.map (·.id)).Nodup := by
    rw [hevents, List.map_append, List.nodup_append]
    refine ⟨h.ids, by simp, ?_⟩
    intro a ha b hb hab
    obtain rfl : b = e.id := by simpa using hb
    exact hid (hab ▸ ha)
  have hsequences : (db.events.map fun e => (e.sessionId, e.sequence)).Nodup := by
    rw [hevents, List.map_append, List.nodup_append]
    refine ⟨h.sequences, by simp, ?_⟩
    intro a ha b hb hab
    obtain rfl : b = (e.sessionId, e.sequence) := by simpa using hb
    exact hsequence (hab ▸ ha)
  have hsub : store.db.events.Sublist db.events := htrim ▸ Repository.trimmed_sublist _ _
  have hnext : ∀ id, ((w.setRegistry (w.registry.pushEvent e)).setStore
      store).registry.nextEventSequence id =
      if id = e.sessionId then e.sequence + 1 else w.registry.nextEventSequence id :=
    fun id => SessionRegistry.nextEventSequence_pushEvent _ _ _
  have hkept : ∀ {o : SessionEvent}, o ∈ db.events →
      (∀ x ∈ db.events, x.sessionId = o.sessionId → x.sequence ≤ o.sequence) →
      o ∈ store.db.events := by
    intro o ho hnewest
    rw [htrim]
    exact Repository.mem_trimmed hids hsequences ho hnewest
  constructor
  · exact hids.sublist (hsub.map _)
  · exact hsequences.sublist (hsub.map _)
  · intro o ho
    have ho' := hsub.subset ho
    rw [hevents] at ho'
    rcases List.mem_append.1 ho' with hold | hnew
    · exact h.positive o hold
    · obtain rfl := List.mem_singleton.1 hnew
      rw [he]
      unfold SessionRegistry.nextEventSequence
      split <;> omega
  · intro id
    by_cases hsession : id = e.sessionId
    · show (Repository.sessionEvents store.db id).length ≤ _
      rw [htrim, hsession]
      exact Repository.trimmed_capped _ _
    · refine (Repository.length_sessionEvents_le hsub id).trans ?_
      have hsame : Repository.sessionEvents db id = Repository.sessionEvents w.db id := by
        rw [Repository.sessionEvents, hevents, List.filter_append]
        simp [Ne.symm hsession, Repository.sessionEvents]
      rw [hsame]
      exact h.capped id
  · intro id
    rw [hnext]
    split
    · rename_i hsession
      refine Or.inr ⟨e, hkept (by simp [hevents]) ?_, hsession.symm, rfl⟩
      intro x hx hxe
      rw [hevents] at hx
      rcases List.mem_append.1 hx with hold | hnew
      · have hlt := hbelow x hold
        rw [hxe, ← he] at hlt
        exact hlt.le
      · rw [List.mem_singleton.1 hnew]
    · rename_i hsession
      rcases h.newest id with hone | ⟨o, ho, hoid, hlast⟩
      · exact Or.inl hone
      · refine Or.inr ⟨o, hkept (by simp [hevents, ho]) ?_, hoid, hlast⟩
        intro x hx hxo
        rw [hevents] at hx
        rcases List.mem_append.1 hx with hold | hnew
        · have hlt := hbelow x hold
          rw [hxo, hoid] at hlt
          omega
        · obtain rfl := List.mem_singleton.1 hnew
          exact absurd (hxo.trans hoid).symm hsession

end LlmNotch
