import LlmNotch.CoreEffects

/-!
# Event sequences

The next sequence of a session is derived from its events in the registry, while the rows of
its events are deleted by age, by count, by size and by purges. The invariant `SequencesOk`
says that every stored sequence is below the next one, that every stored session is in the
registry and that every stored event belongs to a stored session; the last two are what a
restart needs to find the events again.

The one change that breaks it is the second half of a purge, which clears the events of the
registry : an event stored since the first half keeps its row (`purge_loses_sequence`).
`next_sequence_fresh` : in every run in which no purge clears the registry while an event is
stored, every stored sequence is below the next one, and no insert meets a duplicate.
-/

namespace LlmNotch

/-- Stored sequences are below the next one, in a form that survives a restart. -/
structure SequencesOk (w : World) : Prop where
  keyed : Keyed w.registry
  rowIds : (w.db.sessions.map (·.id)).Nodup
  rows : ∀ row ∈ w.db.sessions, (w.registry.sessions.lookup row.id).isSome = true
  owned : ∀ e ∈ w.db.events, ∃ row ∈ w.db.sessions, row.id = e.sessionId
  below : Below w

/-! ## Changes -/

namespace SequencesOk

variable {w : World}

variable {externalIndex : Dict String String} {id : String} {store : Store}

section

variable (h : SequencesOk w)

include h

/-- Changing sessions of the registry in place. -/
theorem setSessions {sessions : Dict String AgentSession}
    (hkeyed : Keyed { w.registry with sessions, externalIndex })
    (hkeys : ∀ id, (w.registry.sessions.lookup id).isSome = true →
      (sessions.lookup id).isSome = true) :
    SequencesOk (w.setRegistry { w.registry with sessions, externalIndex }) where
  keyed := hkeyed
  rowIds := h.rowIds
  rows row hrow := hkeys _ (h.rows row hrow)
  owned := h.owned
  below := h.below

theorem shrink {w' : World} (hr : SameRegistry w.registry w'.registry) (hdb : Shrinks w.db w'.db) :
    SequencesOk w' := by
  have hids := hdb.ids
  have hnext : ∀ id, w'.registry.nextEventSequence id = w.registry.nextEventSequence id := by
    intro id
    simp only [SessionRegistry.nextEventSequence, SessionRegistry.eventsFor, hr.events]
  constructor
  · exact h.keyed.of_eq hr.sessions
  · rw [hids]
    exact h.rowIds
  · intro row hrow
    obtain ⟨row', hrow', hid⟩ := List.mem_map.1 (hids ▸ List.mem_map_of_mem hrow)
    rw [hr.sessions, ← hid]
    exact h.rows row' hrow'
  · intro e he
    obtain ⟨row, hrow, hid⟩ := h.owned e (hdb.events.subset he)
    obtain ⟨row', hrow', hid'⟩ := List.mem_map.1 (hids.symm ▸ List.mem_map_of_mem hrow)
    exact ⟨row', hrow', hid'.trans hid⟩
  · intro e he
    rw [hnext]
    exact h.below e (hdb.events.subset he)

theorem storeSession {s : AgentSession} (hs : w.registry.sessions.lookup id = some s)
    (hdb : Repository.upsertSessionSql s w.db = .ok ((), store.db)) :
    SequencesOk (w.setStore store) := by
  have hrows := (Repository.upsertSessionSql_ok hdb).1
  have hmerge : ∀ y x, (Repository.mergeSession y x).id = y.id := fun _ _ => rfl
  have hkeys := keys_upsertRow hmerge s w.db.sessions
  have hevents : store.db.events = w.db.events := by rw [hrows]
  have hsessions : store.db.sessions =
      upsertRow (·.id) Repository.mergeSession s w.db.sessions := by rw [hrows]
  constructor
  · exact h.keyed
  · show (store.db.sessions.map (·.id)).Nodup
    rw [hsessions]
    exact nodup_upsertRow hmerge s h.rowIds
  · intro row hrow
    have hrow' : row ∈ upsertRow (·.id) Repository.mergeSession s w.db.sessions :=
      hsessions ▸ hrow
    show (w.registry.sessions.lookup row.id).isSome = true
    rcases key_of_mem_upsertRow hmerge hrow' with hid | ⟨old, hold, hid⟩
    · have hk : row.id = id := hid.trans (h.keyed.id hs)
      rw [hk, hs]
      rfl
    · rw [← hid]
      exact h.rows old hold
  · intro e he
    obtain ⟨row, hrow, hid⟩ := h.owned e (hevents ▸ he)
    have hmem : row.id ∈ store.db.sessions.map (·.id) := by
      rw [hsessions, hkeys]
      split
      · exact List.mem_map_of_mem hrow
      · exact List.mem_append_left _ (List.mem_map_of_mem hrow)
    obtain ⟨row', hrow', hid'⟩ := List.mem_map.1 hmem
    exact ⟨row', hrow', hid'.trans hid⟩
  · intro e he
    exact h.below e (hevents ▸ he)

theorem pushEvent {e : SessionEvent} (he : e.sequence = w.registry.nextEventSequence e.sessionId) :
    SequencesOk (w.setRegistry (w.registry.pushEvent e)) := by
  refine ⟨h.keyed.of_eq rfl, h.rowIds, h.rows, h.owned, fun stored hstored => ?_⟩
  have hbelow := h.below stored hstored
  show stored.sequence < (w.registry.pushEvent e).nextEventSequence stored.sessionId
  rw [SessionRegistry.nextEventSequence_pushEvent]
  split
  · rename_i hid
    rw [hid, ← he] at hbelow
    omega
  · exact hbelow

theorem storeEvent {e : SessionEvent} (he : e.sequence < w.registry.nextEventSequence e.sessionId)
    (hdb : Repository.insertEventSql e w.db = .ok ((), store.db)) :
    SequencesOk (w.setStore store) := by
  obtain ⟨hrows, row, hrow, hid⟩ := Repository.insertEventSql_ok hdb
  have hsessions : store.db.sessions = w.db.sessions := by rw [hrows]
  have hevents : ∀ {stored}, stored ∈ store.db.events → stored ∈ w.db.events ∨ stored = e := by
    intro stored hstored
    rw [hrows] at hstored
    simpa using hstored
  constructor
  · exact h.keyed
  · show (store.db.sessions.map (·.id)).Nodup
    rw [hsessions]
    exact h.rowIds
  · intro row hrow
    exact h.rows row (hsessions ▸ hrow)
  · intro stored hstored
    show ∃ row ∈ store.db.sessions, row.id = stored.sessionId
    rw [hsessions]
    rcases hevents hstored with hstored | rfl
    · exact h.owned stored hstored
    · exact ⟨row, hrow, hid⟩
  · intro stored hstored
    rcases hevents hstored with hstored | rfl
    · exact h.below stored hstored
    · exact he

theorem removeRows (hdb : store.db = Repository.withoutSession id w.db) :
    SequencesOk (w.setStore store) := by
  have hsessions : store.db.sessions = w.db.sessions.filter (·.id ≠ id) := by rw [hdb]; rfl
  have hevents : store.db.events = w.db.events.filter (·.sessionId ≠ id) := by rw [hdb]; rfl
  constructor
  · exact h.keyed
  · show (store.db.sessions.map (·.id)).Nodup
    rw [hsessions]
    exact h.rowIds.sublist (List.filter_sublist.map _)
  · intro row hrow
    have hrow' : row ∈ w.db.sessions.filter (·.id ≠ id) := hsessions ▸ hrow
    exact h.rows row (List.mem_filter.1 hrow').1
  · intro e he
    have he' : e ∈ w.db.events.filter (·.sessionId ≠ id) := hevents ▸ he
    obtain ⟨hmem, hne⟩ := List.mem_filter.1 he'
    obtain ⟨row, hrow, hrid⟩ := h.owned e hmem
    refine ⟨row, ?_, hrid⟩
    show row ∈ store.db.sessions
    rw [hsessions]
    exact List.mem_filter.2 ⟨hrow, by rw [hrid]; exact hne⟩
  · intro e he
    have he' : e ∈ w.db.events.filter (·.sessionId ≠ id) := hevents ▸ he
    exact h.below e (List.mem_filter.1 he').1

theorem remove (hkeyed : Keyed { w.registry with
      sessions := w.registry.sessions.erase id
      externalIndex
      events := w.registry.events.erase id }) (hrow : ∀ row ∈ w.db.sessions, row.id ≠ id)
    (hev : ∀ e ∈ w.db.events, e.sessionId ≠ id) :
    SequencesOk (w.setRegistry { w.registry with
      sessions := w.registry.sessions.erase id
      externalIndex
      events := w.registry.events.erase id }) := by
  constructor
  · exact hkeyed
  · exact h.rowIds
  · intro row hr
    show ((w.registry.sessions.erase id).lookup row.id).isSome = true
    rw [Dict.lookup_erase_ite, if_neg (hrow row hr)]
    exact h.rows row hr
  · exact h.owned
  · intro e he
    have hbelow := h.below e he
    have hlookup : (w.registry.events.erase id).lookup e.sessionId =
        w.registry.events.lookup e.sessionId := by
      rw [Dict.lookup_erase_ite, if_neg (hev e he)]
    simpa only [SessionRegistry.nextEventSequence, SessionRegistry.eventsFor,
      World.setRegistry_inner_registry, World.registry, hlookup] using hbelow

end

end SequencesOk

/-- A change keeps the invariant if the events are cleared only while none is stored. -/
theorem Change.sequencesOk {fresh : Prop} {w w' : World} (h : Change fresh True w w')
    (hw : SequencesOk w) : SequencesOk w' := by
  have hkeyed := hw.keyed.change h
  cases h with
  | @assign id s t hs ht =>
    refine hw.setSessions hkeyed fun i hi => ?_
    rw [Dict.lookup_adjust]
    split
    · rw [hs]
      rfl
    · exact hi
  | store hs hdb => exact hw.storeSession hs hdb
  | pushEvent hs he => exact hw.pushEvent he
  | storeEvent he hdb => exact hw.storeEvent he hdb
  | removeRows hdb => exact hw.removeRows hdb
  | remove hs hrow hev => exact hw.remove hkeyed hrow hev
  | insert hk hlen hfresh =>
    refine hw.setSessions hkeyed fun i hi => ?_
    rw [Dict.lookup_insert_ite]
    split
    · rfl
    · exact hi
  | reinsert hs ht hk =>
    refine hw.setSessions hkeyed fun i hi => ?_
    rw [Dict.lookup_insert_ite]
    split
    · rfl
    · exact hi
  | clearMetrics =>
    refine hw.setSessions hkeyed fun i hi => ?_
    rw [Dict.lookup_mapValues, Option.isSome_map]
    exact hi
  | clearEvents hquiet =>
    refine ⟨hkeyed, hw.rowIds, hw.rows, hw.owned, fun e he => ?_⟩
    have hnone : w.db.events = [] := hquiet trivial
    have he' : e ∈ w.db.events := he
    rw [hnone] at he'
    cases he'
  | other hr hdb => exact hw.shrink hr hdb

theorem Evolves.sequencesOk {fresh : Prop} {w w' : World} (h : Evolves fresh True w w')
    (hw : SequencesOk w) : SequencesOk w' := by
  induction h with
  | refl => exact hw
  | tail _ hc ih => exact hc.sequencesOk ih

/-! ## Restarting -/

/-- What a run leaves in a database : the primary key, the foreign key and the capacity. -/
structure SoundDatabase (db : Database) : Prop where
  ids : (db.sessions.map (·.id)).Nodup
  owned : ∀ e ∈ db.events, ∃ row ∈ db.sessions, row.id = e.sessionId
  capacity : db.sessions.length ≤ maxSessions

/-- The stored sessions are in the registry, so there are not more of them. -/
theorem SequencesOk.sound {w : World} (h : SequencesOk w) : SoundDatabase w.db := by
  refine ⟨h.rowIds, h.owned, ?_⟩
  have hsub : w.db.sessions.map (·.id) ⊆ w.registry.sessions.keys := by
    intro id hid
    obtain ⟨row, hrow, rfl⟩ := List.mem_map.1 hid
    exact AList.lookup_isSome.1 (h.rows row hrow)
  have hlen := (List.subperm_of_subset h.rowIds hsub).length_le
  have hkeys : w.registry.sessions.keys.length = w.registry.len := List.length_map _
  rw [List.length_map, hkeys] at hlen
  exact hlen.trans h.keyed.bounded

instance : Std.Total SessionRegistry.eventBefore :=
  ⟨fun a b => le_total (toLex (a.sessionId, a.sequence)) (toLex (b.sessionId, b.sequence))⟩

instance : IsTrans SessionEvent SessionRegistry.eventBefore :=
  ⟨fun _ _ _ hab hbc => le_trans hab hbc⟩

theorem SessionRegistry.eventBefore.sequence_le {a b : SessionEvent}
    (h : SessionRegistry.eventBefore a b) (hid : a.sessionId = b.sessionId) :
    a.sequence ≤ b.sequence := by
  rcases Prod.Lex.le_iff.1 h with hlt | ⟨-, hle⟩
  · exact absurd hid (ne_of_lt hlt)
  · exact hle

/-- Events put back in order are below the next sequence of their session. -/
theorem lt_next_pushAll {events : List SessionEvent} (r : SessionRegistry)
    (hsorted : events.Pairwise SessionRegistry.eventBefore) {e : SessionEvent} (he : e ∈ events) :
    e.sequence < (events.foldl SessionRegistry.pushEvent r).nextEventSequence e.sessionId := by
  induction events using List.reverseRecOn with
  | nil => cases he
  | append_singleton events last ih =>
    rw [List.foldl_append, List.foldl_cons, List.foldl_nil,
      SessionRegistry.nextEventSequence_pushEvent]
    obtain ⟨hinit, -, hlast⟩ := List.pairwise_append.1 hsorted
    rcases List.mem_append.1 he with he | he
    · split
      · rename_i hid
        have hle := (hlast e he last (by simp)).sequence_le hid
        omega
      · exact ih hinit he
    · obtain rfl : e = last := by simpa using he
      rw [if_pos rfl]
      omega

/-- The last events of a session include one with the largest sequence. -/
theorem exists_selected_ge {db : Database} {e : SessionEvent} (he : e ∈ db.events) :
    ∃ last ∈ keepLast maxEventsPerSession (Repository.sessionEvents db e.sessionId),
      last.sessionId = e.sessionId ∧ e.sequence ≤ last.sequence := by
  set own := Repository.sessionEvents db e.sessionId with hown
  have hmem : e ∈ own := by
    rw [hown, Repository.sessionEvents, List.mem_insertionSort, List.mem_filter]
    exact ⟨he, by simp⟩
  have hsorted : own.Pairwise fun a b => a.sequence ≤ b.sequence := by
    have : Std.Total fun a b : SessionEvent => a.sequence ≤ b.sequence :=
      ⟨fun a b => le_total a.sequence b.sequence⟩
    have : IsTrans SessionEvent fun a b => a.sequence ≤ b.sequence :=
      ⟨fun _ _ _ hab hbc => le_trans hab hbc⟩
    exact List.pairwise_insertionSort _ _
  have hne : own ≠ [] := List.ne_nil_of_mem hmem
  obtain ⟨init, last, hsplit⟩ : ∃ init last, own = init ++ [last] :=
    ⟨own.dropLast, own.getLast hne, (List.dropLast_append_getLast hne).symm⟩
  have hlast : last ∈ own := by simp [hsplit]
  refine ⟨last, ?_, ?_, ?_⟩
  · have hkept := SessionRegistry.getLast?_keepLast_append (n := maxEventsPerSession)
      (by decide) init last
    rw [hsplit]
    exact List.mem_of_getLast? hkept
  · rw [hown, Repository.sessionEvents, List.mem_insertionSort, List.mem_filter] at hlast
    simpa using hlast.2
  · rw [hsplit] at hmem hsorted
    rcases List.mem_append.1 hmem with hmem | hmem
    · exact (List.pairwise_append.1 hsorted).2.2 e hmem last (by simp)
    · rw [List.mem_singleton.1 hmem]

/-- The core started on a sound database allocates fresh sequences. -/
theorem sequencesOk_restarted {cfg : CoreConfig} {settings : PublicSettings} {w : World}
    (hsound : SoundDatabase w.db) (hinner : w.inner = restartedCore cfg settings w.db) :
    SequencesOk w := by
  set rows := (Repository.selectedSessions w.db).map (Repository.reload cfg) with hrows
  set r := (SessionRegistry.restoredSessions rows).foldl SessionRegistry.putSession
    SessionRegistry.new with hr
  have hreg : w.registry = (SessionRegistry.restoredEvents r
      (Repository.selectedEvents w.db)).foldl SessionRegistry.pushEvent r := by
    rw [World.registry, hinner]
    rfl
  have hsessions : w.registry.sessions = r.sessions := by
    rw [hreg]
    exact SessionRegistry.sessions_pushAll _ _
  -- a sound database has no more rows than a restart selects
  have hselected : ∀ row ∈ w.db.sessions, row ∈ Repository.selectedSessions w.db := by
    intro row hrow
    rw [Repository.selectedSessions, List.take_of_length_le (by simpa using hsound.capacity)]
    exact (List.mem_insertionSort _).2 hrow
  have hstored : ∀ row ∈ w.db.sessions, (r.sessions.lookup row.id).isSome = true := by
    intro row hrow
    refine SessionRegistry.lookup_putAll.2 (Or.inl ⟨Repository.reload cfg row, ?_, rfl⟩)
    rw [SessionRegistry.restoredSessions, List.take_of_length_le]
    · exact (List.mem_insertionSort _).2 (List.mem_map_of_mem (hselected row hrow))
    · rw [List.length_insertionSort, hrows, List.length_map]
      exact List.length_take_le _ _
  constructor
  · rw [World.registry, hinner]
    exact keyed_restartedCore cfg settings w.db
  · exact hsound.ids
  · intro row hrow
    rw [hsessions]
    exact hstored row hrow
  · exact hsound.owned
  · intro e he
    obtain ⟨row, hrow, hid⟩ := hsound.owned e he
    obtain ⟨last, hlast, hsession, hle⟩ := exists_selected_ge he
    have hmem : last ∈ SessionRegistry.restoredEvents r (Repository.selectedEvents w.db) := by
      rw [SessionRegistry.restoredEvents, List.mem_insertionSort, List.mem_filter,
        Repository.selectedEvents, List.mem_insertionSort, List.mem_flatMap]
      refine ⟨⟨row, hselected row hrow, by rw [hid]; exact hlast⟩, ?_⟩
      rw [hsession, ← hid]
      exact hstored row hrow
    have hlt := lt_next_pushAll r (List.pairwise_insertionSort _ _) hmem
    rw [hreg, ← hsession]
    exact lt_of_le_of_lt hle hlt

/-! ## Runs -/

section Runs

variable {cfg : CoreConfig} {s t : CoreState}

theorem sequencesOk_step {a : CoreAct} (hg : NoLateClear s a) (h : SequencesOk s.world)
    (hstep : coreStep cfg s a = some t) : SequencesOk t.world := by
  rcases step_cases False True False.elim (fun _ => hg) hstep with he | ⟨settings, hinner, hdb⟩
  · exact he.sequencesOk h
  · have hsound := h.sound
    rw [← hdb] at hsound hinner
    exact sequencesOk_restarted hsound hinner

theorem no_duplicate_of_sequencesOk {tid : ℕ} {env : Env}
    (hg : NoLateClear s (.advance tid env)) (h : SequencesOk s.world) :
    sectionFault cfg s tid env ≠ some (.other duplicateSequence) := by
  intro hfault
  obtain ⟨sec, rest, w, hsec, hexec⟩ := sectionFault_cases hfault
  have hends := wp_error (section_evolves False True False.elim (fun _ => hg) hsec) hexec
  obtain ⟨v, hv, hnot⟩ := hends.below rfl
  exact hnot (hv.sequencesOk h).below

end Runs

/-- In every run in which no purge clears the registry while an event is stored, every
stored sequence is below the next one of its session, and no insert meets a duplicate. -/
theorem next_sequence_fresh {cfg : CoreConfig} {env : Env} {settings : PublicSettings}
    {db : Database} {s₀ s : CoreState} {acts : List CoreAct} (hdb : SoundDatabase db)
    (hstart : startCore cfg env settings db = some s₀)
    (hguard : Guarded (coreStep cfg) NoLateClear s₀ acts)
    (hrun : run (coreStep cfg) s₀ acts = some s) :
    (∀ e ∈ s.world.db.events,
      e.sequence < s.world.registry.nextEventSequence e.sessionId) ∧
    ∀ tid env, NoLateClear s (.advance tid env) →
      sectionFault cfg s tid env ≠ some (.other duplicateSequence) := by
  obtain ⟨hinner, hdb'⟩ := startCore_spec hstart
  have h₀ : SequencesOk s₀.world := sequencesOk_restarted (hdb' ▸ hdb) (hdb' ▸ hinner)
  have h : SequencesOk s.world := Guarded.invariant (I := fun s => SequencesOk s.world)
    (fun _ _ _ hg h hstep => sequencesOk_step hg h hstep) h₀ hguard hrun
  exact ⟨h.below, fun tid env hg => no_duplicate_of_sequencesOk hg h⟩

/-- A start, a whole purge, an event, a restart and another event. -/
def purgeRun : List CoreAct :=
  CoreAct.perform 0 (.ingest (.sessionStart (sampleStart .generic "e"))) { uuid := 1 } ++
    CoreAct.perform 1 .purgeSessionEvents {} ++ [.advance 1 {}] ++
    CoreAct.perform 2 (.ingest (.lifecycleEvent (sampleEvent .generic "e"))) { uuid := 2 } ++
    [.restart {} sampleSettings] ++
    CoreAct.perform 0 (.ingest (.lifecycleEvent (sampleEvent .generic "e"))) { uuid := 3 }

/-- The run meets the hypotheses. -/
theorem next_sequence_fresh_purgeRun :
    ∃ s₀ s, startCore sampleCoreConfig {} sampleSettings { integrations := sampleIntegrations } =
        some s₀ ∧
      run (coreStep sampleCoreConfig) s₀ purgeRun = some s ∧
      s.world.db.events.map (·.sequence) = [1, 2] ∧
      ∀ e ∈ s.world.db.events,
        e.sequence < s.world.registry.nextEventSequence e.sessionId := by
  have hrun : ((startCore sampleCoreConfig {} sampleSettings
      { integrations := sampleIntegrations }).bind fun s₀ =>
        (run (coreStep sampleCoreConfig) s₀ purgeRun).map fun s =>
          (checkRun (coreStep sampleCoreConfig) (fun s a => !clearsLate s a) s₀ purgeRun,
            s.world.db.events.map (·.sequence))) = some (true, [1, 2]) := by
    decide
  obtain ⟨s₀, hs₀, hrun⟩ := Option.bind_eq_some_iff.1 hrun
  obtain ⟨s, hs, hvalues⟩ := Option.map_eq_some_iff.1 hrun
  simp only [Prod.mk.injEq] at hvalues
  have hguard : Guarded (coreStep sampleCoreConfig) NoLateClear s₀ purgeRun :=
    Guarded.of_sound (fun s a => !clearsLate s a) (fun _ _ h => (Bool.not_eq_true' _).mp h) hvalues.1
  exact ⟨s₀, s, hs₀, hs, hvalues.2,
    (next_sequence_fresh ⟨by simp, by simp, by simp⟩ hs₀ hguard hs).1⟩

/-! ## An event between the halves of a purge -/

/-- A purge deletes the rows; before it clears the registry, an event is stored. -/
def latePurgeRun : List CoreAct :=
  CoreAct.perform 0 (.ingest (.sessionStart (sampleStart .generic "e"))) { uuid := 1 } ++
    CoreAct.perform 1 .purgeSessionEvents {} ++
    CoreAct.perform 2 (.ingest (.lifecycleEvent (sampleEvent .generic "e"))) { uuid := 2 } ++
    [.advance 1 {}]

/-- Two more events. -/
def collisionRun : List CoreAct :=
  CoreAct.perform 3 (.ingest (.lifecycleEvent (sampleEvent .generic "e"))) { uuid := 3 } ++
    [.call 4 (.ingest (.lifecycleEvent (sampleEvent .generic "e")))]

/-- The next sequence is 1 while 2 is stored, and the second event after that collides. -/
theorem purge_loses_sequence :
    SoundDatabase { integrations := sampleIntegrations } ∧
    ∃ s₀ s t, startCore sampleCoreConfig {} sampleSettings
        { integrations := sampleIntegrations } = some s₀ ∧
      run (coreStep sampleCoreConfig) s₀ latePurgeRun = some s ∧
      s.world.db.events.map (·.sequence) = [2] ∧
      s.world.registry.nextEventSequence (sampleCoreConfig.sessionIdFor .generic "e") = 1 ∧
      run (coreStep sampleCoreConfig) s collisionRun = some t ∧
      sectionFault sampleCoreConfig t 4 { uuid := 4 } = some (.other duplicateSequence) := by
  refine ⟨⟨by simp, by simp, by simp⟩, ?_⟩
  have hrun : ((startCore sampleCoreConfig {} sampleSettings
      { integrations := sampleIntegrations }).bind fun s₀ =>
        (run (coreStep sampleCoreConfig) s₀ latePurgeRun).bind fun s =>
          (run (coreStep sampleCoreConfig) s collisionRun).map fun t =>
            (s.world.db.events.map (·.sequence),
              s.world.registry.nextEventSequence (sampleCoreConfig.sessionIdFor .generic "e"),
              sectionFault sampleCoreConfig t 4 { uuid := 4 })) =
      some ([2], 1, some (.other duplicateSequence)) := by
    decide
  obtain ⟨s₀, hs₀, hrun⟩ := Option.bind_eq_some_iff.1 hrun
  obtain ⟨s, hs, hrun⟩ := Option.bind_eq_some_iff.1 hrun
  obtain ⟨t, ht, hvalues⟩ := Option.map_eq_some_iff.1 hrun
  simp only [Prod.mk.injEq] at hvalues
  exact ⟨s₀, s, t, hs₀, hs, hvalues.1, hvalues.2.1, ht, hvalues.2.2⟩

end LlmNotch
