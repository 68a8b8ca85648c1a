import LlmNotch.StoreAgreement

/-!
# Operations keep memory and store in step

Every operation that returns leaves the registry and the store in step, with nothing due
(`inStep_ingest` and the rules for the other operations). Two of them need an assumption : a
start must not insert its session under the identifier of another, and the samples recorded for
sessions must be readable.
-/

namespace LlmNotch

open AppCore

section Handlers

variable {cfg : CoreConfig} {due : Option String} {w : World} {env : Env}

variable {id summary : String} {kind : SessionEventKind} {level : EventLevel}
  {toolName : Option String} {occurredAtMs : ℤ} {Q : Unit → World → Prop} {s t : AgentSession}
  {cmd : SessionStartCommand} {frame : MetricsFrame}

theorem wp_appendEvent_inStep {Q : SessionEvent → World → Prop} (h : InStep cfg none w)
    (hs : (w.registry.sessions.lookup id).isSome = true)
    (hQ : ∀ e w', InStep cfg none w' → w'.registry.sessions = w.registry.sessions → Q e w') :
    wp (appendEvent env id kind level summary toolName occurredAtMs) w Q anyFault := by
  unfold appendEvent
  rw [wp_bind, wp_get]
  set e : SessionEvent := ⟨env.uuid, id, w.registry.nextEventSequence id, occurredAtMs, kind,
    level, summary, toolName⟩ with he
  rw [wp_bind, onRegistry, wp_zoom]
  refine SessionRegistry.wp_appendEvent hs rfl ?_
  rw [wp_bind, onStore, wp_zoom, Repository.appendEvent, wp_bind]
  refine Repository.wp_statement (fun _ db hdb => ?_) fun _ _ => trivial
  refine Repository.wp_trimSessionEvents (fun store hstore => ?_) fun _ _ => trivial
  rw [wp_bind]
  have hpush : SequencesOk (w.setRegistry (w.registry.pushEvent e)) := h.sequences.pushEvent rfl
  have hnext : e.sequence <
      (w.setRegistry (w.registry.pushEvent e)).registry.nextEventSequence e.sessionId := by
    rw [World.registry, World.setRegistry_inner_registry,
      SessionRegistry.nextEventSequence_pushEvent, if_pos rfl]
    omega
  have hsessions : store.db.sessions = w.db.sessions := by
    rw [hstore, Repository.trimmed_sessions, (Repository.insertEventSql_ok hdb).1]
    rfl
  have hsequences : SequencesOk ((w.setRegistry (w.registry.pushEvent e)).setStore store) := by
    have hstored : SequencesOk ((w.setRegistry (w.registry.pushEvent e)).setStore
        ⟨db, w.store.faults.tail⟩) := hpush.storeEvent hnext hdb
    refine hstored.shrink (SameRegistry.refl _) ⟨?_, ?_⟩
    · show store.db.sessions.map _ = db.sessions.map _
      rw [hstore, Repository.trimmed_sessions]
    · show store.db.events.Sublist db.events
      rw [hstore]
      exact Repository.trimmed_sublist _ _
  have hstep : InStep cfg none ((w.setRegistry (w.registry.pushEvent e)).setStore store) := by
    refine ⟨hsequences, ⟨?_, ?_, h.sessions.restorable⟩,
      h.events.append h.sequences.below rfl hdb hstore⟩
    · intro k hk s
      show w.registry.sessions.lookup k = some s ↔ s ∈ store.db.sessions ∧ s.id = k
      rw [hsessions]
      exact h.sessions.rows k hk s
    · intro row hrow s
      have hrow' : row ∈ w.db.sessions := hsessions ▸ hrow
      exact h.sessions.origin row hrow' s
  exact hQ _ _ (hstep.push _) rfl

/-- The session `s` under `id` may be due. -/
structure Writing (cfg : CoreConfig) (id : String) (s : AgentSession) (w : World) : Prop where
  inStep : InStep cfg (some id) w
  held : w.registry.sessions.lookup id = some s

theorem InStep.writing (h : InStep cfg none w) (hs : w.registry.sessions.lookup id = some s) :
    Writing cfg id s w :=
  ⟨h.weaken _, hs⟩

section

variable (h : Writing cfg id s w)

include h

theorem Writing.readable : Readable cfg s.latestMetric :=
  (h.inStep.sessions.restorable h.held).metric

theorem Writing.assign (ht : Succeeds s t) (hmetric : Readable cfg t.latestMetric) :
    Writing cfg id t (w.withSession id t) :=
  ⟨h.inStep.assign h.held ht hmetric, lookup_withSession t h.held⟩

theorem wp_assign_writing {Q : AgentSession → World → Prop} {E : Fault → World → Prop}
    (ht : Succeeds s t) (hmetric : Readable cfg t.latestMetric)
    (hQ : ∀ w', Writing cfg id t w' → Q t w') : wp (assign id t) w Q E := by
  rw [wp_assign_iff]
  exact hQ _ (h.assign ht hmetric)

theorem wp_store_writing (hQ : ∀ w', InStep cfg none w' → w'.registry = w.registry → Q () w') :
    wp (onStore (Repository.upsertSession s)) w Q anyFault := by
  unfold onStore Repository.upsertSession
  rw [wp_zoom]
  refine Repository.wp_statement (fun _ db hdb => ?_) fun _ _ => trivial
  exact hQ _ (h.inStep.store h.held hdb) rfl

/-- Assign to a session and persist it. -/
theorem wp_save {β : Type} {f : AgentSession → CoreM β} {Q : β → World → Prop} (ht : Succeeds s t)
    (hmetric : Readable cfg t.latestMetric)
    (hf : ∀ w', InStep cfg none w' → w'.registry.sessions.lookup id = some t →
      wp (f t) w' Q anyFault) :
    wp (do
      let session ← assign id t
      onStore (Repository.upsertSession session)
      f session) w Q anyFault := by
  rw [wp_bind]
  refine wp_assign_writing h ht hmetric fun w₁ hw₁ => ?_
  rw [wp_bind]
  refine wp_store_writing hw₁ fun w₂ hw₂ hregistry => hf w₂ hw₂ ?_
  rw [hregistry]
  exact hw₁.held

end

/-- The end of most handlers. -/
theorem wp_publish_inStep {result : SessionEvent → IngestResult} (h : InStep cfg none w)
    (hs : w.registry.sessions.lookup id = some s) :
    wp (do
      let event ← appendEvent env id kind level summary none occurredAtMs
      queuePayload (.sessionUpsert t)
      pure (result event)) w (fun _ => InStep cfg none) anyFault := by
  rw [wp_bind]
  exact wp_appendEvent_inStep h (Option.isSome_iff_exists.2 ⟨s, hs⟩) fun _ _ hw' _ => hw'.push _

section

variable (h : InStep cfg none w)

include h

theorem inStep_sessionUpdate {cmd : SessionUpdateCommand} :
    wp (sessionUpdate env cmd) w (fun _ => InStep cfg none) anyFault := by
  refine returns_check fun _ => ?_
  rw [wp_bind]
  refine returns_requireEvents (returns_resolve fun id s hs => ?_)
  refine wp_updates (I := Writing cfg id) ?_ (fun _ _ _ _ => trivial) (h.writing hs) ?_
  · intro s t w' hw' ht hmetric
    refine hw'.assign ht ?_
    rw [hmetric]
    exact hw'.readable
  · intro t w₁ hw₁
    exact wp_save hw₁ (.of_status rfl rfl rfl rfl rfl) hw₁.readable fun w₂ hw₂ ht =>
      wp_publish_inStep hw₂ ht

theorem inStep_sessionEnd {cmd : SessionEndCommand} :
    wp (sessionEnd env cmd) w (fun _ => InStep cfg none) anyFault := by
  refine returns_check fun _ => ?_
  rw [wp_bind]
  refine returns_requireEvents (returns_resolve fun id s hs => returns_ensure ?_)
  rw [wp_bind, wp_check]
  refine ⟨fun _ hv => ?_, fun _ _ => trivial⟩
  have hended : Succeeds s (ended s cmd) :=
    ⟨rfl, rfl, rfl, rfl, isValidTransition_of_validate hv⟩
  refine wp_save (h.writing hs) hended rfl fun w₁ hw₁ hs₁ => returns_check fun _ => ?_
  exact wp_publish_inStep hw₁ hs₁

/-- The end of the handlers that record an event only. -/
theorem inStep_record {source : AgentSource} {externalSessionId : String} :
    wp (recordEvent env source externalSessionId kind level summary toolName occurredAtMs) w
      (fun _ => InStep cfg none) anyFault := by
  unfold recordEvent
  rw [wp_bind]
  refine returns_requireEvents ?_
  simp only [resolveSessionId, wp_bind, wp_get, wp_okOr, wp_pure]
  refine ⟨fun s hs => ?_, fun _ => trivial⟩
  obtain ⟨id, -, hid⟩ := Option.bind_eq_some_iff.1 hs
  have hstored : w.registry.sessions.lookup s.id = some s := by
    rw [h.sequences.keyed.id hid]
    exact hid
  have hget : w.inner.registry.get s.id = some s := hstored
  simp only [touchSession, wp_bind, wp_get, hget]
  refine wp_assign_writing (h.writing hstored) (.of_status rfl rfl rfl rfl rfl)
    (h.writing hstored).readable fun w₁ hw₁ => ?_
  refine wp_store_writing hw₁ fun w₂ hw₂ hregistry => ?_
  refine wp_appendEvent_inStep hw₂ ?_ fun _ _ hw₃ _ => hw₃
  rw [hregistry, hw₁.held]
  rfl

theorem inStep_lifecycleEvent {cmd : LifecycleEventCommand} :
    wp (lifecycleEvent env cmd) w (fun _ => InStep cfg none) anyFault :=
  returns_check fun _ => returns_check fun _ => inStep_record h

theorem inStep_toolEvent {cmd : ToolEventCommand} :
    wp (toolEvent env cmd) w (fun _ => InStep cfg none) anyFault :=
  returns_check fun _ => returns_check fun _ => returns_check fun _ => inStep_record h

theorem inStep_attention {cmd : AttentionCommand} :
    wp (attention env cmd) w (fun _ => InStep cfg none) anyFault := by
  refine returns_check fun _ => returns_check fun _ => ?_
  rw [wp_bind]
  refine returns_capabilitiesFor fun c => returns_ensure (returns_resolve fun id s hs => ?_)
  have hw := h.writing hs
  refine wp_save hw (.of_status rfl rfl rfl rfl rfl) hw.readable fun w₁ hw₁ hs₁ => ?_
  rw [wp_bind, wp_modify]
  exact wp_publish_inStep (hw₁.congr ⟨rfl, rfl, rfl⟩ rfl rfl) hs₁

theorem inStep_registerProcessRoot {cmd : ProcessRootCommand} :
    wp (registerProcessRoot env cmd) w (fun _ => InStep cfg none) anyFault := by
  refine returns_check fun _ => ?_
  rw [wp_bind]
  refine returns_capabilitiesFor fun c => returns_ensure (returns_resolve fun id s hs => ?_)
  have hw := h.writing hs
  refine wp_save hw (.of_status rfl rfl rfl rfl rfl) hw.readable fun w₁ hw₁ hs₁ => ?_
  exact wp_publish_inStep hw₁ hs₁

theorem inStep_acknowledgeAttention {cmd : AcknowledgeAttentionCommand} :
    wp (acknowledgeAttention cmd) w (fun _ => InStep cfg none) anyFault := by
  refine returns_check fun _ => ?_
  rw [wp_bind]
  refine returns_storedSession fun s hs => ?_
  have hw := h.writing hs
  refine wp_save hw (.of_status rfl rfl rfl rfl rfl) hw.readable fun w₁ hw₁ hs₁ => ?_
  rw [wp_bind, wp_modify, wp_bind]
  exact hw₁.congr ⟨rfl, rfl, rfl⟩ rfl rfl

end

/-- Assign to a stored session, persist it and announce it. -/
theorem inStep_publishSession (h : Writing cfg id s w) (ht : Succeeds s t)
    (hmetric : Readable cfg t.latestMetric) :
    wp (publish env id t) w (fun _ => InStep cfg none) anyFault := by
  refine wp_save h ht hmetric fun w₁ hw₁ _ => ?_
  rw [wp_bind]
  exact (hw₁.push _).flush env

theorem inStep_clearProcessRoot (h : InStep cfg none w) :
    wp (clearProcessRoot env id) w (fun _ => InStep cfg none) anyFault := by
  refine returns_check fun _ => ?_
  rw [wp_bind]
  refine returns_storedSession fun s hs => ?_
  rw [wp_onlyIf]
  exact ⟨fun _ => inStep_publishSession (h.writing hs) (.of_status rfl rfl rfl rfl rfl) rfl,
    fun _ => h⟩

theorem inStep_setVerifiedTerminal {terminal : VerifiedTerminalContext} (h : InStep cfg none w) :
    wp (setVerifiedTerminal env id terminal) w (fun _ => InStep cfg none) anyFault := by
  refine returns_check fun _ => ?_
  rw [wp_bind]
  refine returns_storedSession fun s hs => ?_
  have hw := h.writing hs
  exact inStep_publishSession hw (.of_status rfl rfl rfl rfl rfl) hw.readable

/-! ### Starting and removing -/

theorem wp_dropSession_inStep (h : InStep cfg none w) (hQ : ∀ w', InStep cfg none w' →
      w'.registry.sessions = w.registry.sessions.erase id → Q () w') :
    wp (dropSession id) w Q anyFault := by
  unfold dropSession
  rw [wp_bind, onStore, wp_zoom, Repository.removeSession]
  refine Repository.wp_statement (fun _ db hdb => ?_) fun _ _ => trivial
  obtain rfl := (Prod.mk.inj (Except.ok.inj hdb)).2
  rw [wp_bind, onRegistry, wp_zoom, SessionRegistry.removeSession]
  simp only [wp_bind, wp_get, wp_okOr, wp_modify]
  refine ⟨fun s hs => ?_, fun _ => trivial⟩
  refine hQ _ (InStep.push ?_ _) rfl
  exact h.remove hs

theorem wp_evict_inStep (h : InStep cfg none w) (hQ : ∀ w', InStep cfg none w' →
      (∀ id, WillBeFree w.registry env.sessionsRank id →
        w'.registry.sessions.lookup id = none) → Q () w') : wp (evict env) w Q anyFault := by
  unfold evict
  simp only [wp_bind, wp_get, wp_check]
  refine ⟨fun candidate hc => ?_, fun _ _ => trivial⟩
  cases candidate with
  | none =>
    refine hQ w h fun id hid => hid.resolve_right fun hevicted => ?_
    rw [hc] at hevicted
    cases hevicted
  | some evictedId =>
    refine wp_dropSession_inStep h fun w' hw' hsessions => hQ w' hw' fun id hid => ?_
    rw [hsessions, Dict.lookup_erase_ite]
    rcases hid with hid | hid
    · rw [hid, ite_self]
    · rw [hc] at hid
      obtain rfl : evictedId = id := by simpa using hid
      exact if_pos rfl

theorem inStep_openSession (h : Writing cfg s.id s w) :
    wp (openSession env cmd s) w (fun _ => InStep cfg none) anyFault := by
  unfold openSession
  rw [wp_bind]
  refine wp_store_writing h fun w₁ hw₁ hregistry => ?_
  have hs₁ : w₁.registry.sessions.lookup s.id = some s := by
    rw [hregistry]
    exact h.held
  rw [wp_bind]
  refine wp_appendEvent_inStep hw₁ (by rw [hs₁]; rfl) fun e w₂ hw₂ hsessions => ?_
  rw [wp_bind, onRegistry, wp_zoom, SessionRegistry.upsertSession, wp_bind, wp_check]
  refine ⟨fun _ _ => ?_, fun _ _ => trivial⟩
  rw [wp_modify, wp_bind]
  set t : AgentSession := { s with lastEventAtMs := cmd.occurredAtMs }
  have hs₂ : w₂.registry.sessions.lookup t.id = some s := by
    rw [hsessions]
    exact hs₁
  have hw₃ := (hw₂.weaken (some t.id)).reinsert hs₂ (.of_status rfl rfl rfl rfl rfl) h.readable
  have hheld : (w₂.registry.sessions.insert t.id t).lookup t.id = some t := AList.lookup_insert _
  exact wp_store_writing ⟨hw₃, hheld⟩ fun w₄ hw₄ _ => hw₄.push _

section

variable (h : InStep cfg none w)

include h

theorem inStep_createSession (hfree : WillBeFree w.registry env.sessionsRank
      (cfg.sessionIdFor cmd.source cmd.externalSessionId)) :
    wp (createSession cfg env cmd) w (fun _ => InStep cfg none) anyFault := by
  unfold createSession
  rw [wp_bind]
  refine wp_evict_inStep h fun w₁ hw₁ hfreed => ?_
  rw [wp_bind, onRegistry, wp_zoom, SessionRegistry.insertNewSession]
  simp only [wp_bind, wp_check, wp_get]
  refine ⟨fun _ hext => ?_, fun _ _ => trivial⟩
  cases hk : w₁.inner.registry.externalIndex.lookup
      (externalKey cmd.source cmd.externalSessionId) with
  | some existingId =>
    simp only [wp_bind, wp_expect, wp_pure]
    exact ⟨fun _ _ => hw₁, fun _ => trivial⟩
  | none =>
    simp only [wp_bind, wp_ensure, wp_pure, SessionRegistry.upsertSession, wp_check, wp_modify,
      decide_eq_true_eq]
    refine ⟨fun hlen => ⟨fun _ _ => ?_, fun _ _ => trivial⟩, fun _ => trivial⟩
    set s := newSession cmd (cfg.sessionIdFor cmd.source cmd.externalSessionId)
    have hinsert := hw₁.insert (s := s) (hfreed _ hfree) hlen ⟨rfl, hext⟩
    exact inStep_openSession ⟨hinsert, AList.lookup_insert _⟩

/-- Looking for an earlier start changes no session. -/
theorem wp_replayedStart_inStep {Q : Option AgentSession → World → Prop}
    (hQ : ∀ r w', InStep cfg none w' → SameRegistry w.registry w'.registry →
      w'.inner.integrations = w.inner.integrations → Q r w') :
    wp (replayedStart cmd) w Q anyFault := by
  unfold replayedStart
  cases cmd.idempotencyKey with
  | none => exact hQ none w h (SameRegistry.refl _) rfl
  | some key =>
    have hknown : wp (knownKey key cmd.occurredAtMs) w (fun _ w' =>
        ∃ store, w' = w.setStore store ∧ store.db.sessions = w.db.sessions ∧
          store.db.events = w.db.events) anyFault := by
      unfold knownKey
      rw [wp_bind, wp_get]
      split
      · exact ⟨w.store, rfl, rfl, rfl⟩
      · rw [onStore, wp_zoom, Repository.storeIdempotencyKey]
        refine Repository.wp_statement (fun known db hdb => ?_) fun _ _ => trivial
        refine ⟨_, rfl, ?_⟩
        split at hdb
        · obtain rfl := (Prod.mk.inj (Except.ok.inj hdb)).2
          exact ⟨rfl, rfl⟩
        · obtain rfl := (Prod.mk.inj (Except.ok.inj hdb)).2
          exact ⟨rfl, rfl⟩
    rw [wp_bind]
    refine wp_mono hknown ?_ (fun _ _ h => h)
    rintro known _ ⟨store, rfl, hsessions, hevents⟩
    have hstore : InStep cfg none (w.setStore store) :=
      h.congr (SameRegistry.refl _) hsessions hevents
    rw [wp_bind, wp_get]
    split
    · exact hQ _ _ hstore (SameRegistry.refl _) rfl
    · rw [wp_bind, onRegistry, wp_zoom, SessionRegistry.recordIdempotency, wp_modify]
      exact hQ _ _ (hstore.congr ⟨rfl, rfl, rfl⟩ rfl rfl) ⟨rfl, rfl, rfl⟩ rfl

theorem inStep_sessionStart (hfree : StartsNew w cmd → WillBeFree w.registry env.sessionsRank
      (cfg.sessionIdFor cmd.source cmd.externalSessionId)) :
    wp (sessionStart cfg env cmd) w (fun _ => InStep cfg none) anyFault := by
  unfold sessionStart
  simp only [wp_bind, wp_check]
  refine ⟨fun _ hext => ⟨fun _ hlabel => ⟨fun _ hworkspace => ?_, fun _ _ => trivial⟩,
    fun _ _ => trivial⟩, fun _ _ => trivial⟩
  refine wp_replayedStart_inStep h fun replayed w' hw' hr hi => ?_
  cases replayed with
  | some session => exact hw'
  | none =>
    simp only [requireEvents, capabilitiesFor, wp_bind, wp_get, wp_okOr, wp_ensure, wp_check]
    refine ⟨fun c hc => ⟨fun hevents => ⟨fun _ hstatus => ?_, fun _ _ => trivial⟩,
      fun _ => trivial⟩, fun _ => trivial⟩
    cases hres : w'.inner.registry.resolveExternal cmd.source cmd.externalSessionId with
    | some existing => exact hw'
    | none =>
      have hsame := hr.resolveExternal cmd.source cmd.externalSessionId
      have hnew : StartsNew w cmd :=
        ⟨hext, hlabel, hworkspace, hstatus, ⟨c, hi ▸ hc, hevents⟩, hsame ▸ hres⟩
      exact inStep_createSession hw' ((hfree hnew).congr hr.sessions)

theorem inStep_integrationHealth {cmd : IntegrationHealthCommand} :
    wp (integrationHealth cmd) w (fun _ => InStep cfg none) anyFault := by
  unfold integrationHealth
  rw [wp_bind, onStore, wp_zoom, Repository.upsertIntegration]
  refine Repository.wp_statement (fun _ db hdb => ?_) fun _ _ => trivial
  obtain rfl := (Prod.mk.inj (Except.ok.inj hdb)).2
  exact h.congr ⟨rfl, rfl, rfl⟩ rfl rfl

theorem inStep_ingest {command : IngestCommand}
    (hfree : ∀ cmd, command = .sessionStart cmd → StartsNew w cmd →
      WillBeFree w.registry env.sessionsRank
        (cfg.sessionIdFor cmd.source cmd.externalSessionId)) :
    wp (ingest cfg env command) w (fun _ => InStep cfg none) anyFault := by
  have hhandle : wp (handleIngest cfg env command) w (fun _ => InStep cfg none) anyFault := by
    cases command with
    | sessionStart cmd => exact inStep_sessionStart h (hfree cmd rfl)
    | sessionUpdate cmd => exact inStep_sessionUpdate h
    | sessionEnd cmd => exact inStep_sessionEnd h
    | lifecycleEvent cmd => exact inStep_lifecycleEvent h
    | toolEvent cmd => exact inStep_toolEvent h
    | attention cmd => exact inStep_attention h
    | registerProcessRoot cmd => exact inStep_registerProcessRoot h
    | integrationHealth cmd => exact inStep_integrationHealth h
    | acknowledgeAttention cmd => exact inStep_acknowledgeAttention h
  unfold ingest
  rw [wp_bind]
  exact wp_mono hhandle (fun _ w' hw' => hw'.flush env) (fun _ _ h => h)

end

/-! ### Loops -/

/-- The samples of the frame for the sessions that have not ended are read back as they are. -/
def MetricsReadable (cfg : CoreConfig) (frame : MetricsFrame) (w : World) : Prop :=
  ∀ id s, w.registry.sessions.lookup id = some s → isTerminal s.status = false →
    Readable cfg (frame.agents.lookup id)

section

variable (h : InStep cfg none w)

include h

theorem inStep_refreshMetric (hframe : MetricsReadable cfg frame w) :
    wp (refreshMetric frame id) w
      (fun _ w' => InStep cfg none w' ∧ MetricsReadable cfg frame w') anyFault := by
  unfold refreshMetric
  rw [wp_bind, wp_get]
  split
  · rename_i s hs
    have hs' : w.registry.sessions.lookup id = some s := hs
    set t : AgentSession := { s with
      latestMetric := if isTerminal s.status then none else frame.agents.lookup id } with ht
    have hmetric : Readable cfg t.latestMetric := by
      rw [ht]
      dsimp only
      split
      · rfl
      · rename_i hactive
        exact hframe id s hs' (by simpa using hactive)
    rw [wp_bind, wp_assign_iff]
    refine wp_store_writing ((h.writing hs').assign (.of_status rfl rfl rfl rfl rfl) hmetric)
      fun w₂ hw₂ hregistry => ⟨hw₂, fun k u hu hactive => ?_⟩
    have hlookup : (w.registry.sessions.adjust id fun _ => t).lookup k = some u := by
      rw [hregistry] at hu
      exact hu
    rw [Dict.lookup_adjust] at hlookup
    split at hlookup
    · rename_i hk
      rw [hs', Option.map_some, Option.some.injEq] at hlookup
      rw [hk]
      refine hframe id s hs' ?_
      rw [← hlookup] at hactive
      exact hactive
    · exact hframe k u hlookup hactive
  · exact ⟨h, hframe⟩

theorem inStep_applyMetrics {now : ℤ} (hframe : MetricsReadable cfg frame w) :
    wp (applyMetrics env frame now) w (fun _ => InStep cfg none) anyFault := by
  unfold applyMetrics
  rw [wp_bind, wp_get, wp_bind]
  refine wp_mono (wp_forM (I := fun w' => InStep cfg none w' ∧ MetricsReadable cfg frame w') _ _
    (fun _ _ _ hI => inStep_refreshMetric hI.1 hI.2) ⟨h, hframe⟩) (fun _ w₁ hw₁ => ?_)
    (fun _ _ h => h)
  rw [wp_bind, wp_modify, wp_bind, wp_modify, wp_bind]
  refine InStep.flush (w := World.push _ _) ?_ env
  exact hw₁.1.congr ⟨rfl, rfl, rfl⟩ rfl rfl

theorem inStep_markStale {now : ℤ} :
    wp (markStale now id) w (fun _ => InStep cfg none) anyFault := by
  unfold markStale
  rw [wp_bind, wp_get, wp_bind, wp_expect]
  refine ⟨fun s hs => ?_, fun _ => trivial⟩
  rw [wp_onlyIf]
  refine ⟨fun hv => ?_, fun _ => h⟩
  have hs' : w.registry.sessions.lookup id = some s := hs
  exact wp_save (h.writing hs') ⟨rfl, rfl, rfl, rfl, hv⟩ rfl fun w₁ hw₁ _ => hw₁.push _

theorem inStep_tick : wp (tick env) w (fun _ => InStep cfg none) anyFault := by
  unfold tick markStaleSessions
  rw [wp_bind, wp_bind, wp_get]
  exact wp_mono (wp_forM (I := InStep cfg none) _ _ (fun _ _ _ hI => inStep_markStale hI) h)
    (fun _ w₁ hw₁ => hw₁.flush env) (fun _ _ h => h)

theorem inStep_removeSession : wp (removeSession env id) w (fun _ => InStep cfg none) anyFault := by
  refine returns_check fun _ => ?_
  rw [wp_bind]
  refine returns_storedSession fun _ _ => ?_
  rw [wp_bind]
  exact wp_dropSession_inStep h fun w₁ hw₁ _ => hw₁.flush env

/-- A bucket is no part of a session. -/
theorem inStep_recordBuckets {now : ℤ} :
    wp (recordBuckets frame now) w (fun _ => InStep cfg none) anyFault := by
  have hbucket : ∀ {scope id sample w}, InStep cfg none w →
      wp (onStore (Repository.recordMetricBucket scope id (bucketStart now) sample)) w
        (fun _ => InStep cfg none) anyFault := by
    intro scope id sample w hw
    rw [onStore, wp_zoom, Repository.recordMetricBucket]
    refine Repository.wp_statement (fun _ db hdb => ?_) fun _ _ => trivial
    unfold Repository.recordMetricBucketSql at hdb
    split at hdb
    · cases hdb
    · split at hdb
      · cases hdb
      · obtain rfl := (Prod.mk.inj (Except.ok.inj hdb)).2
        exact hw.congr (SameRegistry.refl _) rfl rfl
  unfold recordBuckets
  rw [wp_bind]
  refine wp_mono (hbucket h) (fun _ w₁ hw₁ => ?_) (fun _ _ h => h)
  rw [wp_bind]
  refine wp_mono (hbucket hw₁) (fun _ w₂ hw₂ => ?_) (fun _ _ h => h)
  exact wp_forM (I := InStep cfg none) _ _ (fun _ _ _ hI => hbucket hI) hw₂

end

end Handlers

/-! ## Pruning -/

namespace Repository

/-- The events but the 500 that occurred first. -/
def withoutOldest (events : List SessionEvent) : List SessionEvent :=
  events.filter fun e => !(oldestEvents { events := events }).contains e.id

/-- The events that stay while the file is too large, by the sizes it reports. -/
def keptBySize : List ℕ → List SessionEvent → List SessionEvent
  | bytesAfter :: sizes, events =>
    if pruneTargetBytes < bytesAfter then keptBySize sizes (withoutOldest events) else events
  | [], events => events

/-- The events that are young enough and fit. -/
def keptEvents (nowMs : ℤ) (sizes : List ℕ) (events : List SessionEvent) : List SessionEvent :=
  keptBySize sizes (events.filter fun e => decide (nowMs - eventRetentionMs ≤ e.occurredAtMs))

theorem keptBySize_sublist (sizes : List ℕ) (events : List SessionEvent) :
    (keptBySize sizes events).Sublist events := by
  induction sizes generalizing events with
  | nil => exact List.Sublist.refl _
  | cons bytesAfter sizes ih =>
    unfold keptBySize
    split
    · exact (ih _).trans List.filter_sublist
    · exact List.Sublist.refl _

theorem keptEvents_sublist (nowMs : ℤ) (sizes : List ℕ) (events : List SessionEvent) :
    (keptEvents nowMs sizes events).Sublist events :=
  (keptBySize_sublist _ _).trans List.filter_sublist

/-- A round that deletes nothing finds nothing. -/
theorem withoutOldest_eq_nil {events : List SessionEvent}
    (h : events.length - (withoutOldest events).length = 0) : events = [] := by
  by_contra hne
  obtain ⟨first, rest, hsort⟩ : ∃ first rest,
      (events.insertionSort fun a b => a.occurredAtMs ≤ b.occurredAtMs) = first :: rest := by
    rw [← List.ne_nil_iff_exists_cons, ← List.length_pos_iff, List.length_insertionSort]
    exact List.length_pos_iff.2 hne
  have hfirst : first ∈ events := by
    rw [← List.mem_insertionSort fun a b => a.occurredAtMs ≤ b.occurredAtMs, hsort]
    exact List.mem_cons_self
  have holdest : first.id ∈ oldestEvents { events := events } := by
    simp [oldestEvents, hsort]
  have hlt : (withoutOldest events).length < events.length :=
    List.length_filter_lt_length_iff_exists.2 ⟨first, hfirst, by simpa using holdest⟩
  omega

theorem keptBySize_nil (sizes : List ℕ) : keptBySize sizes [] = [] :=
  List.sublist_nil.1 (keptBySize_sublist sizes [])

theorem wp_pruneToTarget {sizes : List ℕ} {eventsDeleted : ℕ} {s : Store}
    {Q : ℕ × ℕ → Store → Prop} {E : Fault → Store → Prop}
    (hQ : ∀ r t, t.db.sessions = s.db.sessions → t.db.events = keptBySize sizes s.db.events → Q r t)
    (hE : ∀ f t, E f t) : wp (pruneToTarget eventsDeleted sizes) s Q E := by
  induction sizes generalizing eventsDeleted s with
  | nil => exact hQ _ s rfl rfl
  | cons bytesAfter sizes ih =>
    unfold pruneToTarget
    unfold keptBySize at hQ
    split
    · rename_i hlarge
      rw [if_pos hlarge] at hQ
      rw [wp_bind]
      refine wp_statement (fun deleted db hdb => ?_) fun _ _ => hE _ _
      obtain ⟨hdeleted, hdb⟩ := Prod.mk.inj (Except.ok.inj hdb)
      subst hdb
      split
      · rename_i hzero
        rw [hzero] at hdeleted
        have hnil : s.db.events = [] := withoutOldest_eq_nil hdeleted
        refine hQ _ _ rfl ?_
        show withoutOldest s.db.events = keptBySize sizes (withoutOldest s.db.events)
        rw [hnil]
        exact (keptBySize_nil sizes).symm
      · exact ih fun r t hsessions hevents => hQ r t hsessions hevents
    · rename_i hsmall
      rw [if_neg hsmall] at hQ
      exact hQ _ s rfl rfl

/-- What a prune leaves. -/
theorem wp_pruneWithMetricRetention {nowMs metricRetentionMs : ℤ} {sizes : List ℕ} {s : Store}
    {Q : PurgeReport → Store → Prop} {E : Fault → Store → Prop}
    (hQ : ∀ report t, t.db.events = keptEvents nowMs sizes s.db.events →
      t.db.sessions = (if 0 < report.metricBucketsDeleted then
        (forgetLatestMetrics s.db).sessions else s.db.sessions) → Q report t)
    (hE : ∀ f t, E f t) :
    wp (pruneWithMetricRetention nowMs metricRetentionMs sizes) s Q E := by
  unfold pruneWithMetricRetention
  rw [wp_bind]
  refine wp_statement (fun eventsDeleted db₁ h₁ => ?_) fun _ _ => hE _ _
  obtain rfl := (Prod.mk.inj (Except.ok.inj h₁)).2
  rw [wp_bind]
  refine wp_statement (fun bucketsDeleted db₂ h₂ => ?_) fun _ _ => hE _ _
  obtain rfl := (Prod.mk.inj (Except.ok.inj h₂)).2
  have hfinish : ∀ t : Store, t.db.sessions = (if 0 < bucketsDeleted then
      (forgetLatestMetrics s.db).sessions else s.db.sessions) →
      t.db.events = s.db.events.filter
        (fun e => decide (nowMs - eventRetentionMs ≤ e.occurredAtMs)) →
      wp (do
        let r ← pruneToTarget eventsDeleted sizes
        execute fun db => db
        pure (⟨r.1, bucketsDeleted, r.2⟩ : PurgeReport)) t Q E := by
    intro t hsessions hevents
    rw [wp_bind]
    refine wp_pruneToTarget (fun r t₁ hsessions₁ hevents₁ => ?_) hE
    rw [wp_bind]
    refine wp_statement (fun _ db₃ h₃ => ?_) fun _ _ => hE _ _
    obtain rfl := (Prod.mk.inj (Except.ok.inj h₃)).2
    refine hQ _ _ ?_ (hsessions₁.trans hsessions)
    rw [hevents₁, hevents]
    rfl
  rw [wp_bind, wp_onlyIf]
  constructor
  · intro hdeleted
    refine wp_statement (fun _ db₃ h₃ => ?_) fun _ _ => hE _ _
    obtain rfl := (Prod.mk.inj (Except.ok.inj h₃)).2
    refine hfinish _ ?_ rfl
    rw [if_pos (by simpa using hdeleted)]
    rfl
  · intro hnone
    refine hfinish _ ?_ rfl
    rw [if_neg (by simpa using hnone)]

end Repository

/-- The newest event of every session is young enough and fits. -/
def NewestKept (env : Env) (db : Database) : Prop :=
  ∀ e ∈ db.events, (∀ o ∈ db.events, o.sessionId = e.sessionId → o.sequence ≤ e.sequence) →
    e ∈ Repository.keptEvents env.now env.sizes db.events

/-! ## Sections -/

/-- The second half of a purge. -/
def CoreSection.isSecondHalf : CoreSection → Bool
  | forgetMetrics | clearEvents => true
  | _ => false

/-- The world after the second half of a purge, if a call has come to it. -/
def World.settled (w : World) : List CoreSection → World
  | .forgetMetrics :: _ => w.setRegistry { w.registry with
      sessions := w.registry.sessions.mapValues fun s => { s with latestMetric := none } }
  | .clearEvents :: _ => w.setRegistry { w.registry with events := ∅ }
  | _ => w

section Sections

variable {cfg : CoreConfig} {w : World} {env : Env}

theorem settled_of_firstHalf {secs : List CoreSection}
    (h : ∀ sec ∈ secs, sec.isSecondHalf = false) : w.settled secs = w := by
  unfold World.settled
  split
  · have hhalf := h _ List.mem_cons_self
    cases hhalf
  · have hhalf := h _ List.mem_cons_self
    cases hhalf
  · rfl

/-- Pruning keeps the newest events. -/
theorem InStep.prune {store : Store} (h : InStep cfg none w) (hkept : NewestKept env w.db)
    (hsessions : store.db.sessions = w.db.sessions)
    (hevents : store.db.events = Repository.keptEvents env.now env.sizes w.db.events) :
    InStep cfg none (w.setStore store) := by
  have hsub : store.db.events.Sublist w.db.events :=
    hevents ▸ Repository.keptEvents_sublist _ _ _
  have hshrink : Shrinks w.db store.db := ⟨by rw [hsessions], hsub⟩
  refine ⟨h.sequences.shrink (SameRegistry.refl _) hshrink, ⟨?_, ?_, h.sessions.restorable⟩, ?_⟩
  · intro id hid s
    show w.registry.sessions.lookup id = some s ↔ s ∈ store.db.sessions ∧ s.id = id
    rw [hsessions]
    exact h.sessions.rows id hid s
  · intro row hrow
    have hrow' : row ∈ w.db.sessions := hsessions ▸ hrow
    exact h.sessions.origin row hrow'
  · constructor
    · exact h.events.ids.sublist (hsub.map _)
    · exact h.events.sequences.sublist (hsub.map _)
    · intro e he
      exact h.events.positive e (hsub.subset he)
    · intro id
      exact (Repository.length_sessionEvents_le hsub id).trans (h.events.capped id)
    · intro id
      refine (h.events.newest id).imp_right ?_
      rintro ⟨e, he, hid, hlast⟩
      refine ⟨e, ?_, hid, hlast⟩
      show e ∈ store.db.events
      rw [hevents]
      refine hkept e he fun o ho hoe => ?_
      have hbelow := h.sequences.below o ho
      rw [hoe, hid] at hbelow
      omega

/-- The samples are forgotten on both sides. -/
theorem InStep.forget {store : Store} (h : InStep cfg none w)
    (hsessions : store.db.sessions = (Repository.forgetLatestMetrics w.db).sessions)
    (hevents : store.db.events = w.db.events) :
    InStep cfg none ((w.setStore store).settled [.forgetMetrics]) := by
  have hlookup : ∀ k, ((w.setStore store).settled [.forgetMetrics]).registry.sessions.lookup k =
      (w.registry.sessions.lookup k).map fun s => { s with latestMetric := none } :=
    fun k => Dict.lookup_mapValues _ _ k
  have hrow : ∀ row, row ∈ store.db.sessions ↔
      ∃ old ∈ w.db.sessions, row = { old with latestMetric := none } := by
    intro row
    rw [hsessions]
    simp [Repository.forgetLatestMetrics, eq_comm]
  have hshrink : Shrinks w.db store.db := by
    refine ⟨?_, by rw [hevents]⟩
    rw [hsessions]
    exact (shrinks_forgetLatestMetrics w.db).sessions
  have hstored : SequencesOk (w.setStore store) :=
    h.sequences.shrink (SameRegistry.refl _) hshrink
  have hchange : Change False True (w.setStore store)
      ((w.setStore store).settled [.forgetMetrics]) := .clearMetrics
  refine ⟨hchange.sequencesOk hstored, ⟨?_, ?_, ?_⟩, h.events.congr rfl hevents⟩
  · intro id _ s
    show _ ↔ s ∈ store.db.sessions ∧ s.id = id
    rw [hlookup, hrow, Option.map_eq_some_iff]
    constructor
    · rintro ⟨old, hold, rfl⟩
      obtain ⟨hmem, hid⟩ := (h.sessions.rows id (by simp) old).1 hold
      exact ⟨⟨old, hmem, rfl⟩, hid⟩
    · rintro ⟨⟨old, hmem, rfl⟩, hid⟩
      exact ⟨old, (h.sessions.rows id (by simp) old).2 ⟨hmem, hid⟩, rfl⟩
  · intro row hmem s hs
    obtain ⟨old, hold, rfl⟩ := (hrow row).1 hmem
    rw [hlookup, Option.map_eq_some_iff] at hs
    obtain ⟨t, ht, rfl⟩ := hs
    have horigin := h.sessions.origin old hold t ht
    exact ⟨horigin.source, horigin.externalSessionId, horigin.startedAtMs⟩
  · intro id s hs
    rw [hlookup, Option.map_eq_some_iff] at hs
    obtain ⟨t, ht, rfl⟩ := hs
    exact ⟨rfl, (h.sessions.restorable ht).external⟩

/-- The events are cleared on both sides. -/
theorem InStep.clear {store : Store} (h : InStep cfg none w)
    (hsessions : store.db.sessions = w.db.sessions) (hevents : store.db.events = []) :
    InStep cfg none ((w.setStore store).settled [.clearEvents]) := by
  have hshrink : Shrinks w.db store.db :=
    ⟨by rw [hsessions], by rw [hevents]; exact List.nil_sublist _⟩
  have hstored : SequencesOk (w.setStore store) :=
    h.sequences.shrink (SameRegistry.refl _) hshrink
  have hchange : Change False True (w.setStore store)
      ((w.setStore store).settled [.clearEvents]) := .clearEvents fun _ => hevents
  have hdb : ((w.setStore store).settled [.clearEvents]).db.events = [] := hevents
  refine ⟨hchange.sequencesOk hstored, ⟨?_, ?_, h.sessions.restorable⟩, ⟨?_, ?_, ?_, ?_, ?_⟩⟩
  · intro id hid s
    show w.registry.sessions.lookup id = some s ↔ s ∈ store.db.sessions ∧ s.id = id
    rw [hsessions]
    exact h.sessions.rows id hid s
  · intro row hrow
    have hrow' : row ∈ w.db.sessions := hsessions ▸ hrow
    exact h.sessions.origin row hrow'
  · rw [hdb]
    exact List.nodup_nil
  · rw [hdb]
    exact List.nodup_nil
  · intro e he
    rw [hdb] at he
    cases he
  · intro id
    rw [Repository.sessionEvents, hdb]
    exact Nat.zero_le _
  · intro id
    exact Or.inl rfl

/-- The assumptions under which a section keeps memory and store in step. -/
structure Harmless (cfg : CoreConfig) (env : Env) (w : World) (sec : CoreSection) : Prop where
  start : ∀ cmd, sec = .ingest (.sessionStart cmd) → StartsNew w cmd →
    WillBeFree w.registry env.sessionsRank (cfg.sessionIdFor cmd.source cmd.externalSessionId)
  metrics : ∀ frame now, sec = .applyMetrics frame now → MetricsReadable cfg frame w
  prune : ∀ retentionMs, sec = .prune retentionMs → NewestKept env w.db

/-- Every section that returns leaves memory and store in step, up to the second half of a
purge. -/
theorem inStep_exec {sec : CoreSection} {rest : List CoreSection}
    (hrest : ∀ sec ∈ rest, sec.isSecondHalf = false) (hsec : Harmless cfg env w sec)
    (h : InStep cfg none (w.settled (sec :: rest))) :
    wp (sec.exec cfg env) w (fun more w' => InStep cfg none (w'.settled (more ++ rest)) ∧
      ∀ sec ∈ (more ++ rest).tail, sec.isSecondHalf = false) anyFault := by
  have htail : ∀ sec ∈ rest.tail, sec.isSecondHalf = false :=
    fun sec hmem => hrest sec (List.mem_of_mem_tail hmem)
  have hdone : ∀ {m : CoreM Unit}, wp m w (fun _ => InStep cfg none) anyFault →
      wp (do m; pure []) w (fun more w' => InStep cfg none (w'.settled (more ++ rest)) ∧
        ∀ sec ∈ (more ++ rest).tail, sec.isSecondHalf = false) anyFault := by
    intro m hm
    rw [wp_bind]
    refine wp_mono hm (fun _ w' hw' => ⟨?_, htail⟩) (fun _ _ h => h)
    rw [List.nil_append, settled_of_firstHalf hrest]
    exact hw'
  cases sec with
  | ingest command =>
    refine (wp_bind _ _).2 ?_
    refine wp_mono (inStep_ingest h fun cmd hc => ?_) (fun _ w' hw' => ⟨?_, htail⟩)
      (fun _ _ h => h)
    · exact hsec.start cmd (by rw [hc])
    · rw [List.nil_append, settled_of_firstHalf hrest]
      exact hw'
  | tick => exact hdone (inStep_tick h)
  | removeSession id => exact hdone (inStep_removeSession h)
  | clearProcessRoot id => exact hdone (inStep_clearProcessRoot h)
  | setVerifiedTerminal id terminal => exact hdone (inStep_setVerifiedTerminal h)
  | heartbeat =>
    refine hdone ((wp_bind _ _).2 ?_)
    exact (h.push _).flush env
  | saveSettings settings =>
    refine (wp_bind _ _).2 ?_
    rw [onStore, wp_zoom, Repository.saveSettings]
    refine Repository.wp_statement (fun _ db hdb => ⟨?_, hrest⟩) fun _ _ => trivial
    obtain rfl := (Prod.mk.inj (Except.ok.inj hdb)).2
    exact h.congr (SameRegistry.refl _) rfl rfl
  | applySettings settings =>
    refine hdone ((wp_bind _ _).2 ?_)
    rw [wp_modify, wp_bind]
    refine InStep.flush (w := World.push _ _) ?_ env
    exact h.congr ⟨rfl, rfl, rfl⟩ rfl rfl
  | recordBuckets frame =>
    refine (wp_bind _ _).2 ?_
    exact wp_mono (inStep_recordBuckets h) (fun _ w' hw' => ⟨hw', hrest⟩) (fun _ _ h => h)
  | applyMetrics frame now => exact hdone (inStep_applyMetrics h (hsec.metrics frame now rfl))
  | readRetention => exact ⟨h, hrest⟩
  | prune retentionMs =>
    refine (wp_bind _ _).2 ?_
    rw [onStore, wp_zoom]
    refine Repository.wp_pruneWithMetricRetention (fun report t hevents hsessions => ?_)
      fun _ _ => trivial
    have hkept := hsec.prune retentionMs rfl
    rw [wp_pure]
    split at hsessions
    · rename_i hdeleted
      rw [if_pos hdeleted]
      refine ⟨?_, hrest⟩
      have hpruned : InStep cfg none
          (w.setStore { t with db := { t.db with sessions := w.db.sessions } }) :=
        h.prune hkept rfl hevents
      have hforgotten : InStep cfg none ((w.setStore t).settled [.forgetMetrics]) :=
        hpruned.forget hsessions rfl
      exact hforgotten
    · rename_i hnone
      rw [if_neg hnone, List.nil_append, settled_of_firstHalf hrest]
      exact ⟨h.prune hkept hsessions hevents, htail⟩
  | purgeMetricRows =>
    refine (wp_bind _ _).2 ?_
    rw [onStore, wp_zoom, Repository.purgeMetricHistory]
    refine Repository.wp_statement (fun _ db hdb => ⟨?_, hrest⟩) fun _ _ => trivial
    obtain rfl := (Prod.mk.inj (Except.ok.inj hdb)).2
    exact h.forget rfl rfl
  | forgetMetrics =>
    refine hdone ((wp_bind _ _).2 ?_)
    rw [onRegistry, wp_zoom, SessionRegistry.clearLatestMetrics, wp_modify]
    exact h.congr ⟨rfl, rfl, rfl⟩ rfl rfl
  | purgeEventRows =>
    refine (wp_bind _ _).2 ?_
    rw [onStore, wp_zoom, Repository.purgeSessionEvents]
    refine Repository.wp_statement (fun _ db hdb => ⟨?_, hrest⟩) fun _ _ => trivial
    obtain rfl := (Prod.mk.inj (Except.ok.inj hdb)).2
    exact h.clear rfl rfl
  | clearEvents =>
    refine hdone ?_
    rw [onRegistry, wp_zoom, SessionRegistry.clearEvents, wp_modify]
    exact h

end Sections

end LlmNotch
