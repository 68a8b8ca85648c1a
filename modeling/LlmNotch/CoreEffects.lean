import LlmNotch.CoreChanges

/-!
# What a step of the core can do

Every section of a call is a chain of small changes, whether it returns or fails on the way
(`exec_evolves`), and a step of the system is such a chain or a restart (`step_cases`). An
invariant is checked against the changes and the restart, and not against the operations.
-/

namespace LlmNotch

/-! ## Session start -/

/-- The identifier is not stored, or is the one the start evicts. -/
def WillBeFree (r : SessionRegistry) (rank : String → ℕ) (id : String) : Prop :=
  r.sessions.lookup id = none ∨ r.capacityEvictionCandidate rank = .ok (some id)

theorem WillBeFree.congr {r r' : SessionRegistry} {rank : String → ℕ} {id : String}
    (h : WillBeFree r rank id) (hs : r'.sessions = r.sessions) : WillBeFree r' rank id := by
  obtain ⟨sessions, _, _, _⟩ := r
  obtain ⟨sessions', _, _, _⟩ := r'
  obtain rfl : sessions' = sessions := hs
  exact h

/-- The start passes its checks and no session has its key. -/
structure StartsNew (w : World) (cmd : SessionStartCommand) : Prop where
  externalSessionId : validateExternalSessionId cmd.externalSessionId = .ok ()
  label : validateSessionLabel cmd.label = .ok ()
  workspaceLabel : AppCore.validateOptional validateWorkspaceLabel cmd.workspaceLabel = .ok ()
  status : AppCore.validateStartStatus cmd.status = .ok ()
  events : ∃ c, w.inner.integrations.find? (·.source = cmd.source) = some c ∧ c.events = true
  unknown : w.registry.resolveExternal cmd.source cmd.externalSessionId = none

section Start

open AppCore

variable {fresh quiet : Prop} {w₀ w : World} {cfg : CoreConfig} {env : Env}

theorem wp_knownKey {key : String} {occurredAtMs : ℤ} {Q : Bool → World → Prop}
    (hw : Evolves fresh quiet w₀ w)
    (hQ : ∀ known store, Evolves fresh quiet w₀ (w.setStore store) →
      Q known (w.setStore store)) :
    wp (knownKey key occurredAtMs) w Q (EndsWell fresh quiet w₀) := by
  unfold knownKey
  rw [wp_bind, wp_get]
  split
  · exact hQ true w.store hw
  · exact wp_onStore_shrinks (shrinks_storeIdempotencyKey _ _) hw hQ

variable {Q : Unit → World → Prop} {cmd : SessionStartCommand}

section

variable (hw : Evolves fresh quiet w₀ w)

include hw

theorem wp_replayedStart {Q : Option AgentSession → World → Prop}
    (hQ : ∀ r w', Evolves fresh quiet w₀ w' → SameRegistry w.registry w'.registry →
      w'.inner.integrations = w.inner.integrations → Q r w') :
    wp (replayedStart cmd) w Q (EndsWell fresh quiet w₀) := by
  unfold replayedStart
  cases cmd.idempotencyKey with
  | none => exact hQ none w hw (SameRegistry.refl _) rfl
  | some key =>
    simp only [wp_bind]
    refine wp_knownKey hw fun known store hstore => ?_
    rw [wp_get]
    split
    · exact hQ _ _ hstore (SameRegistry.refl _) rfl
    · simp only [wp_bind, onRegistry, wp_zoom, SessionRegistry.recordIdempotency, wp_modify,
        wp_pure]
      exact hQ _ _ (hstore.tail (.other ⟨rfl, rfl, rfl⟩ (Shrinks.refl store.db)))
        ⟨rfl, rfl, rfl⟩ rfl

theorem wp_dropSession {id : String} (hQ : ∀ w', Evolves fresh quiet w₀ w' →
      w'.registry.sessions = w.registry.sessions.erase id → Q () w') :
    wp (dropSession id) w Q (EndsWell fresh quiet w₀) := by
  unfold dropSession
  rw [wp_bind, onStore, wp_zoom, Repository.removeSession]
  refine Repository.wp_statement (fun _ db hdb => ?_) (fun detail hd => ?_)
  · obtain rfl := (Prod.mk.inj (Except.ok.inj hdb)).2
    rw [wp_bind, onRegistry, wp_zoom, SessionRegistry.removeSession]
    simp only [wp_bind, wp_get, wp_okOr, wp_modify]
    have hrows : Evolves fresh quiet w₀
        (w.setStore ⟨Repository.withoutSession id w.db, w.store.faults.tail⟩) :=
      hw.tail (.removeRows rfl)
    refine ⟨fun s hs => ?_, fun _ => EndsWell.err hrows _⟩
    have hrow : ∀ row ∈ (Repository.withoutSession id w.db).sessions, row.id ≠ id := by
      intro row hrow
      simpa using (List.mem_filter.1 hrow).2
    have hev : ∀ e ∈ (Repository.withoutSession id w.db).events, e.sessionId ≠ id := by
      intro e he
      simpa using (List.mem_filter.1 he).2
    exact wp_queuePayload (hrows.tail (.remove hs hrow hev)) fun hw' => hQ _ hw' rfl
  · have hdisk : detail = diskError := hd.resolve_right fun h => by cases h
    refine EndsWell.other (hw.setStore ?_) (hdisk ▸ diskError_ne)
    exact Shrinks.refl w.db

theorem wp_evict (hQ : ∀ w', Evolves fresh quiet w₀ w' →
      (∀ id, WillBeFree w.registry env.sessionsRank id →
        w'.registry.sessions.lookup id = none) → Q () w') :
    wp (evict env) w Q (EndsWell fresh quiet w₀) := by
  unfold evict
  simp only [wp_bind, wp_get, wp_check]
  refine ⟨fun candidate hc => ?_, fun e _ => EndsWell.err hw e⟩
  cases candidate with
  | none =>
    refine hQ w hw fun id hid => hid.resolve_right fun h => ?_
    rw [hc] at h
    cases h
  | some evictedId =>
    refine wp_dropSession hw fun w' hw' hsessions => hQ w' hw' fun id hid => ?_
    rw [hsessions, Dict.lookup_erase_ite]
    rcases hid with hid | hid
    · rw [hid, ite_self]
    · rw [hc] at hid
      obtain rfl : evictedId = id := by simpa using hid
      exact if_pos rfl

theorem wp_openSession {s : AgentSession} (hs : w.registry.sessions.lookup s.id = some s)
    (hk : w.registry.externalIndex.lookup s.key = some s.id) :
    wp (openSession env cmd s) w (fun _ => Evolves fresh quiet w₀)
      (EndsWell fresh quiet w₀) := by
  unfold openSession
  rw [wp_bind]
  refine wp_storeSession hw hs fun store hstore => ?_
  rw [wp_bind]
  refine wp_appendEvent hstore (Option.isSome_iff_exists.2 ⟨s, hs⟩)
    fun e w' hw' hsessions hindex => ?_
  rw [wp_bind, onRegistry, wp_zoom, SessionRegistry.upsertSession]
  rw [wp_bind, wp_check]
  refine ⟨fun _ _ => ?_, fun err _ => EndsWell.err hw' err⟩
  rw [wp_modify, wp_bind]
  set t : AgentSession := { s with lastEventAtMs := cmd.occurredAtMs }
  have ht : Evolves fresh quiet w₀ (w'.setRegistry { w'.registry with
      externalIndex := w'.registry.externalIndex.insert t.key t.id
      sessions := w'.registry.sessions.insert t.id t }) := by
    refine hw'.tail (.reinsert (s := s) (t := t) ?_ ?_ ?_)
    · rw [hsessions]
      exact hs
    · exact ⟨rfl, rfl, rfl, rfl, isValidTransition_self _⟩
    · rw [hindex]
      exact hk
  have hlookup : (w'.registry.sessions.insert t.id t).lookup t.id = some t :=
    AList.lookup_insert _
  refine wp_storeSession ht hlookup fun store' hstore' => ?_
  rw [wp_bind]
  exact wp_queuePayload hstore' fun hdone => hdone

theorem wp_createSession (hfree : fresh → WillBeFree w.registry env.sessionsRank
      (cfg.sessionIdFor cmd.source cmd.externalSessionId)) :
    wp (createSession cfg env cmd) w (fun _ => Evolves fresh quiet w₀)
      (EndsWell fresh quiet w₀) := by
  unfold createSession
  rw [wp_bind]
  refine wp_evict hw fun w' hw' hfreed => ?_
  rw [wp_bind, onRegistry, wp_zoom, SessionRegistry.insertNewSession]
  simp only [wp_bind, wp_check, wp_get]
  refine ⟨fun _ _ => ?_, fun err _ => EndsWell.err hw' err⟩
  cases hk : w'.inner.registry.externalIndex.lookup
      (externalKey cmd.source cmd.externalSessionId) with
  | some existingId =>
    simp only [wp_bind, wp_expect, wp_pure]
    refine ⟨fun s _ => hw', fun hnone => EndsWell.panic hw' _ fun hi => ?_⟩
    obtain ⟨s, hs, -⟩ := hi.indexed hk
    rw [hs] at hnone
    cases hnone
  | none =>
    simp only [wp_bind, wp_ensure, wp_pure, SessionRegistry.upsertSession, wp_check, wp_modify,
      decide_eq_true_eq]
    refine ⟨fun hlen => ⟨fun _ _ => ?_, fun err _ => EndsWell.err hw' err⟩,
      fun _ => EndsWell.err hw' _⟩
    set s := newSession cmd (cfg.sessionIdFor cmd.source cmd.externalSessionId)
    have hins := hw'.tail (Change.insert (s := s) hk hlen fun h => hfreed _ (hfree h))
    exact wp_openSession hins (AList.lookup_insert _) (AList.lookup_insert _)

theorem wp_sessionStart (hfree : fresh → StartsNew w cmd → WillBeFree w.registry env.sessionsRank
      (cfg.sessionIdFor cmd.source cmd.externalSessionId)) :
    wp (sessionStart cfg env cmd) w (fun _ => Evolves fresh quiet w₀)
      (EndsWell fresh quiet w₀) := by
  unfold sessionStart
  simp only [wp_bind, wp_check]
  refine ⟨fun _ hext => ⟨fun _ hlabel => ⟨fun _ hworkspace => ?_,
    fun e _ => EndsWell.err hw e⟩, fun e _ => EndsWell.err hw e⟩, fun e _ => EndsWell.err hw e⟩
  refine wp_replayedStart hw fun replayed w' hw' hr hi => ?_
  cases replayed with
  | some session => exact hw'
  | none =>
    simp only [requireEvents, capabilitiesFor, wp_bind, wp_get, wp_okOr, wp_ensure, wp_check]
    refine ⟨fun c hc => ⟨fun hevents => ⟨fun _ hstatus => ?_, fun e _ => EndsWell.err hw' e⟩,
      fun _ => EndsWell.err hw' _⟩, fun _ => EndsWell.err hw' _⟩
    cases hres : w'.inner.registry.resolveExternal cmd.source cmd.externalSessionId with
    | some existing => exact hw'
    | none =>
      refine wp_createSession hw' fun hf => ?_
      have hsame := hr.resolveExternal cmd.source cmd.externalSessionId
      have hnew : StartsNew w cmd :=
        ⟨hext, hlabel, hworkspace, hstatus, ⟨c, hi ▸ hc, hevents⟩, hsame ▸ hres⟩
      exact (hfree hf hnew).congr hr.sessions

end

end Start

/-! ## The other operations -/

section Handlers

open AppCore

variable {fresh quiet : Prop} {w₀ w : World} {env : Env}

variable {id : String} {kind : SessionEventKind} {occurredAtMs : ℤ} {Q : Unit → World → Prop}
  {frame : MetricsFrame}

/-- The end of most handlers : persist the session, append an event and announce. -/
theorem wp_publish {s : AgentSession} {level : EventLevel} {summary : String}
    {result : SessionEvent → IngestResult} (hw : Evolves fresh quiet w₀ w)
    (hs : w.registry.sessions.lookup id = some s) :
    wp (do
      let event ← appendEvent env id kind level summary none occurredAtMs
      queuePayload (.sessionUpsert s)
      pure (result event)) w (fun _ => Evolves fresh quiet w₀) (EndsWell fresh quiet w₀) := by
  rw [wp_bind]
  refine wp_appendEvent hw (Option.isSome_iff_exists.2 ⟨s, hs⟩) fun e w' hw' _ _ => ?_
  rw [wp_bind]
  exact wp_queuePayload hw' fun h => h

section

variable (hw : Evolves fresh quiet w₀ w)

include hw

theorem wp_sessionUpdate {cmd : SessionUpdateCommand} :
    wp (sessionUpdate env cmd) w (fun _ => Evolves fresh quiet w₀)
      (EndsWell fresh quiet w₀) := by
  unfold sessionUpdate
  refine wp_check_bind (fun _ => EndsWell.err hw) fun _ => ?_
  rw [wp_bind]
  refine wp_requireEvents hw (wp_resolve hw fun id s hs => ?_)
  refine wp_updates (I := fun t w' => Evolves fresh quiet w₀ w' ∧
    w'.registry.sessions.lookup id = some t) ?_ (fun _ _ e h => EndsWell.err h.1 e) ⟨hw, hs⟩ ?_
  · rintro s t w' ⟨hw', hs'⟩ ht -
    exact ⟨hw'.tail (.assign hs' ht), lookup_withSession t hs'⟩
  · rintro t w₁ ⟨hw₁, ht⟩
    rw [wp_bind]
    refine wp_assign hw₁ ht (.of_status rfl rfl rfl rfl rfl) fun w₂ hw₂ hs₂ => ?_
    rw [wp_bind]
    refine wp_storeSession hw₂ hs₂ fun store hw₃ => ?_
    exact wp_publish hw₃ hs₂

theorem wp_sessionEnd {cmd : SessionEndCommand} :
    wp (sessionEnd env cmd) w (fun _ => Evolves fresh quiet w₀) (EndsWell fresh quiet w₀) := by
  unfold sessionEnd
  refine wp_check_bind (fun _ => EndsWell.err hw) fun _ => ?_
  rw [wp_bind]
  refine wp_requireEvents hw (wp_resolve hw fun id s hs => ?_)
  refine wp_ensure_bind (EndsWell.err hw) fun _ => ?_
  refine wp_check_bind (fun _ => EndsWell.err hw) fun hv => ?_
  rw [wp_bind]
  have hended : Succeeds s (ended s cmd) :=
    ⟨rfl, rfl, rfl, rfl, isValidTransition_of_validate hv⟩
  refine wp_assign hw hs hended fun w₁ hw₁ hs₁ => ?_
  rw [wp_bind]
  refine wp_storeSession hw₁ hs₁ fun store hw₂ => ?_
  exact wp_check_bind (fun _ => EndsWell.err hw₂) fun _ => wp_publish hw₂ hs₁

theorem wp_touchSession (hid : (w.registry.sessions.lookup id).isSome = true)
    (hQ : ∀ w', Evolves fresh quiet w₀ w' →
      (w'.registry.sessions.lookup id).isSome = true → Q () w') :
    wp (touchSession id occurredAtMs) w Q (EndsWell fresh quiet w₀) := by
  obtain ⟨s, hs⟩ := Option.isSome_iff_exists.1 hid
  have hget : w.inner.registry.get id = some s := hs
  simp only [touchSession, wp_bind, wp_get, hget]
  refine wp_assign hw hs (.of_status rfl rfl rfl rfl rfl) fun w₁ hw₁ hs₁ => ?_
  exact wp_storeSession hw₁ hs₁ fun store hw₂ =>
    hQ _ hw₂ (Option.isSome_iff_exists.2 ⟨_, hs₁⟩)

/-- The end of the handlers that record an event only. -/
theorem wp_record {source : AgentSource} {externalSessionId : String} {level : EventLevel}
    {summary : String} {toolName : Option String} :
    wp (recordEvent env source externalSessionId kind level summary toolName occurredAtMs) w
      (fun _ => Evolves fresh quiet w₀) (EndsWell fresh quiet w₀) := by
  unfold recordEvent
  rw [wp_bind]
  refine wp_requireEvents hw ?_
  simp only [resolveSessionId, wp_bind, wp_get, wp_okOr, wp_pure]
  refine ⟨fun s hs => ?_, fun _ => EndsWell.err hw _⟩
  by_cases hid : (w.registry.sessions.lookup s.id).isSome = true
  · refine wp_touchSession hw hid fun w₁ hw₁ hid₁ => ?_
    exact wp_appendEvent hw₁ hid₁ fun _ _ hw₂ _ _ => hw₂
  · have hnone : w.inner.registry.sessions.lookup s.id = none := by simpa using hid
    have hget : w.inner.registry.get s.id = none := hnone
    simp only [touchSession, wp_bind, wp_get, hget, wp_pure, appendEvent, onRegistry, wp_zoom,
      SessionRegistry.appendEvent, wp_ensure, hnone, Option.isSome_none, Bool.false_eq_true,
      false_implies, true_implies, true_and]
    exact EndsWell.err hw _

theorem wp_lifecycleEvent {cmd : LifecycleEventCommand} :
    wp (lifecycleEvent env cmd) w (fun _ => Evolves fresh quiet w₀)
      (EndsWell fresh quiet w₀) := by
  unfold lifecycleEvent
  refine wp_check_bind (fun _ => EndsWell.err hw) fun _ => ?_
  exact wp_check_bind (fun _ => EndsWell.err hw) fun _ => wp_record hw

theorem wp_toolEvent {cmd : ToolEventCommand} :
    wp (toolEvent env cmd) w (fun _ => Evolves fresh quiet w₀) (EndsWell fresh quiet w₀) := by
  unfold toolEvent
  refine wp_check_bind (fun _ => EndsWell.err hw) fun _ => ?_
  refine wp_check_bind (fun _ => EndsWell.err hw) fun _ => ?_
  exact wp_check_bind (fun _ => EndsWell.err hw) fun _ => wp_record hw

theorem wp_attention {cmd : AttentionCommand} :
    wp (attention env cmd) w (fun _ => Evolves fresh quiet w₀) (EndsWell fresh quiet w₀) := by
  unfold attention
  refine wp_check_bind (fun _ => EndsWell.err hw) fun _ => ?_
  refine wp_check_bind (fun _ => EndsWell.err hw) fun _ => ?_
  rw [wp_bind]
  refine wp_capabilitiesFor hw fun c => ?_
  rw [wp_bind, ensureAttentionCapability, wp_ensure]
  refine ⟨fun _ => wp_resolve hw fun id s hs => ?_, fun _ => EndsWell.err hw _⟩
  rw [wp_bind]
  refine wp_assign hw hs (.of_status rfl rfl rfl rfl rfl) fun w₁ hw₁ hs₁ => ?_
  rw [wp_bind]
  refine wp_storeSession hw₁ hs₁ fun store hw₂ => ?_
  rw [wp_bind, wp_modify]
  exact wp_publish (hw₂.outside rfl (Shrinks.refl _)) hs₁

theorem wp_registerProcessRoot {cmd : ProcessRootCommand} :
    wp (registerProcessRoot env cmd) w (fun _ => Evolves fresh quiet w₀)
      (EndsWell fresh quiet w₀) := by
  unfold registerProcessRoot
  refine wp_check_bind (fun _ => EndsWell.err hw) fun _ => ?_
  rw [wp_bind]
  refine wp_capabilitiesFor hw fun c => ?_
  rw [wp_bind, wp_ensure]
  refine ⟨fun _ => wp_resolve hw fun id s hs => ?_, fun _ => EndsWell.err hw _⟩
  rw [wp_bind]
  refine wp_assign hw hs (.of_status rfl rfl rfl rfl rfl) fun w₁ hw₁ hs₁ => ?_
  rw [wp_bind]
  refine wp_storeSession hw₁ hs₁ fun store hw₂ => ?_
  exact wp_publish hw₂ hs₁

theorem wp_integrationHealth {cmd : IntegrationHealthCommand} :
    wp (integrationHealth cmd) w (fun _ => Evolves fresh quiet w₀)
      (EndsWell fresh quiet w₀) := by
  unfold integrationHealth
  rw [wp_bind]
  refine wp_onStore_shrinks (shrinks_upsertIntegration _) hw fun _ store hw₁ => ?_
  rw [wp_bind, wp_modify, wp_bind]
  refine wp_queuePayload (hw₁.outside rfl ?_) fun h => h
  exact Shrinks.refl store.db

theorem wp_storedSession {Q : AgentSession → World → Prop}
    (hQ : ∀ s, w.registry.sessions.lookup id = some s → Q s w) :
    wp (storedSession id) w Q (EndsWell fresh quiet w₀) := by
  simp only [storedSession, wp_bind, wp_get, wp_okOr]
  exact ⟨fun s hs => hQ s hs, fun _ => EndsWell.err hw _⟩

theorem wp_acknowledgeAttention {cmd : AcknowledgeAttentionCommand} :
    wp (acknowledgeAttention cmd) w (fun _ => Evolves fresh quiet w₀)
      (EndsWell fresh quiet w₀) := by
  unfold acknowledgeAttention
  refine wp_check_bind (fun _ => EndsWell.err hw) fun _ => ?_
  rw [wp_bind]
  refine wp_storedSession hw fun s hs => ?_
  rw [wp_bind]
  refine wp_assign hw hs (.of_status rfl rfl rfl rfl rfl) fun w₁ hw₁ hs₁ => ?_
  rw [wp_bind]
  refine wp_storeSession hw₁ hs₁ fun store hw₂ => ?_
  rw [wp_bind, wp_modify, wp_bind]
  exact wp_queuePayload (hw₂.outside rfl (Shrinks.refl _)) fun h => h

theorem wp_flushPending {E : Fault → World → Prop}
    (hQ : ∀ w', Evolves fresh quiet w₀ w' → Q () w') : wp (flushPending env) w Q E :=
  hQ _ (hw.flush env)

theorem wp_ingest {cfg : CoreConfig} {command : IngestCommand}
    (hfree : fresh → ∀ cmd, command = .sessionStart cmd → StartsNew w cmd →
      WillBeFree w.registry env.sessionsRank
        (cfg.sessionIdFor cmd.source cmd.externalSessionId)) :
    wp (ingest cfg env command) w (fun _ => Evolves fresh quiet w₀)
      (EndsWell fresh quiet w₀) := by
  have hhandle : wp (handleIngest cfg env command) w (fun _ => Evolves fresh quiet w₀)
      (EndsWell fresh quiet w₀) := by
    cases command with
    | sessionStart cmd => exact wp_sessionStart hw fun hf => hfree hf cmd rfl
    | sessionUpdate cmd => exact wp_sessionUpdate hw
    | sessionEnd cmd => exact wp_sessionEnd hw
    | lifecycleEvent cmd => exact wp_lifecycleEvent hw
    | toolEvent cmd => exact wp_toolEvent hw
    | attention cmd => exact wp_attention hw
    | registerProcessRoot cmd => exact wp_registerProcessRoot hw
    | integrationHealth cmd => exact wp_integrationHealth hw
    | acknowledgeAttention cmd => exact wp_acknowledgeAttention hw
  unfold ingest
  rw [wp_bind]
  refine wp_mono hhandle (fun _ w' hw' => ?_) (fun _ _ h => h)
  rw [wp_bind]
  exact wp_flushPending hw' fun _ h => h

end

/-! ## Loops -/

section

variable (hw : Evolves fresh quiet w₀ w)

include hw

theorem wp_refreshMetric :
    wp (refreshMetric frame id) w (fun _ => Evolves fresh quiet w₀)
      (EndsWell fresh quiet w₀) := by
  unfold refreshMetric
  rw [wp_bind, wp_get]
  split
  · rename_i s hs
    rw [wp_bind]
    refine wp_assign hw hs (.of_status rfl rfl rfl rfl rfl) fun w₁ hw₁ hs₁ => ?_
    exact wp_storeSession hw₁ hs₁ fun _ h => h
  · exact hw

theorem wp_applyMetrics {now : ℤ} :
    wp (applyMetrics env frame now) w (fun _ => Evolves fresh quiet w₀)
      (EndsWell fresh quiet w₀) := by
  unfold applyMetrics
  rw [wp_bind, wp_get, wp_bind]
  refine wp_mono (wp_forM (I := Evolves fresh quiet w₀) _ _ (fun _ _ _ h => wp_refreshMetric h) hw)
    (fun _ w₁ hw₁ => ?_) (fun _ _ h => h)
  rw [wp_bind, wp_modify, wp_bind, wp_modify, wp_bind]
  refine wp_queuePayload (hw₁.outside rfl (Shrinks.refl _)) fun hw₂ => ?_
  exact wp_flushPending hw₂ fun _ h => h

theorem wp_recordBuckets {now : ℤ} :
    wp (recordBuckets frame now) w (fun _ => Evolves fresh quiet w₀)
      (EndsWell fresh quiet w₀) := by
  have hbucket : ∀ {scope id sample w}, Evolves fresh quiet w₀ w →
      wp (onStore (Repository.recordMetricBucket scope id (bucketStart now) sample)) w
        (fun _ => Evolves fresh quiet w₀) (EndsWell fresh quiet w₀) := fun hw =>
    wp_onStore_shrinks (shrinks_recordMetricBucket _ _ _ _) hw fun _ _ h => h
  unfold recordBuckets
  rw [wp_bind]
  refine wp_mono (hbucket hw) (fun _ w₁ hw₁ => ?_) (fun _ _ h => h)
  rw [wp_bind]
  refine wp_mono (hbucket hw₁) (fun _ w₂ hw₂ => ?_) (fun _ _ h => h)
  exact wp_forM (I := Evolves fresh quiet w₀) _ _ (fun _ _ _ h => hbucket h) hw₂

/-- While sessions are marked as stale, every session to mark stays stored. -/
theorem wp_markStale {now : ℤ} {ids : List String} (hid : id ∈ ids)
    (hids : ∀ i ∈ ids, ∃ k s, w.registry.sessions.lookup k = some s ∧ s.id = i) :
    wp (markStale now id) w (fun _ w' => Evolves fresh quiet w₀ w' ∧
        ∀ i ∈ ids, ∃ k s, w'.registry.sessions.lookup k = some s ∧ s.id = i)
      (EndsWell fresh quiet w₀) := by
  unfold markStale
  rw [wp_bind, wp_get, wp_bind, wp_expect]
  refine ⟨fun s hs => ?_, fun hnone => EndsWell.panic hw _ fun hi => ?_⟩
  · rw [wp_onlyIf]
    refine ⟨fun hv => ?_, fun _ => ⟨hw, hids⟩⟩
    have hs' : w.registry.sessions.lookup id = some s := hs
    simp only [assign, onRegistry, SessionRegistry.modifySession, wp_bind, wp_zoom, wp_modify,
      wp_pure]
    set stale : AgentSession :=
      { s with status := .stale, lastEventAtMs := now, latestMetric := none }
    have hstale : Succeeds s stale := ⟨rfl, rfl, rfl, rfl, hv⟩
    have hlookup : (w.registry.sessions.adjust id fun _ => stale).lookup id = some stale := by
      simp [Dict.lookup_adjust, hs']
    refine wp_storeSession (hw.tail (.assign hs' hstale)) hlookup fun store hw₁ => ?_
    refine wp_queuePayload hw₁ fun hw₂ => ⟨hw₂, fun i hi => ?_⟩
    obtain ⟨k, t, ht, rfl⟩ := hids i hi
    by_cases hk : k = id
    · subst hk
      obtain rfl : s = t := Option.some.inj (hs'.symm.trans ht)
      exact ⟨k, stale, by simp [Dict.lookup_adjust, ht], rfl⟩
    · exact ⟨k, t, by simp [Dict.lookup_adjust, hk, ht], rfl⟩
  · obtain ⟨k, s, hs, rfl⟩ := hids id hid
    have hnone' : w.registry.sessions.lookup s.id = none := hnone
    rw [hi.keyed hs, hs] at hnone'
    cases hnone'

theorem wp_tick : wp (tick env) w (fun _ => Evolves fresh quiet w₀) (EndsWell fresh quiet w₀) := by
  unfold tick markStaleSessions
  rw [wp_bind, wp_bind, wp_get]
  refine wp_mono (wp_forM (I := fun w' => Evolves fresh quiet w₀ w' ∧ ∀ i ∈ _, ∃ k s,
      w'.registry.sessions.lookup k = some s ∧ s.id = i) _ _
    (fun _ hid _ h => wp_markStale h.1 hid h.2) ⟨hw, fun i hi => ?_⟩)
    (fun _ _ h => wp_flushPending h.1 fun _ h => h) (fun _ _ h => h)
  obtain ⟨s, hs, rfl⟩ := List.mem_map.1 hi
  obtain ⟨k, hk⟩ := Dict.mem_valuesBy.1 (List.mem_filter.1 hs).1
  exact ⟨k, s, hk, rfl⟩

end

/-! ## Sections -/

section

variable (hw : Evolves fresh quiet w₀ w)

include hw

theorem wp_publishSession {s t : AgentSession} (hs : w.registry.sessions.lookup id = some s)
    (ht : Succeeds s t) :
    wp (publish env id t) w (fun _ => Evolves fresh quiet w₀) (EndsWell fresh quiet w₀) := by
  unfold publish
  rw [wp_bind]
  refine wp_assign hw hs ht fun w₁ hw₁ hs₁ => ?_
  rw [wp_bind]
  refine wp_storeSession hw₁ hs₁ fun store hw₂ => ?_
  rw [wp_bind]
  exact wp_queuePayload hw₂ fun hw₃ => wp_flushPending hw₃ fun _ h => h

theorem wp_removeSession :
    wp (removeSession env id) w (fun _ => Evolves fresh quiet w₀) (EndsWell fresh quiet w₀) := by
  unfold removeSession
  refine wp_check_bind (fun _ => EndsWell.err hw) fun _ => ?_
  rw [wp_bind]
  refine wp_storedSession hw fun s hs => ?_
  rw [wp_bind]
  exact wp_dropSession hw fun w₁ hw₁ _ => wp_flushPending hw₁ fun _ h => h

theorem wp_clearProcessRoot :
    wp (clearProcessRoot env id) w (fun _ => Evolves fresh quiet w₀)
      (EndsWell fresh quiet w₀) := by
  unfold clearProcessRoot
  refine wp_check_bind (fun _ => EndsWell.err hw) fun _ => ?_
  rw [wp_bind]
  refine wp_storedSession hw fun s hs => ?_
  rw [wp_onlyIf]
  exact ⟨fun _ => wp_publishSession hw hs (.of_status rfl rfl rfl rfl rfl), fun _ => hw⟩

theorem wp_setVerifiedTerminal {terminal : VerifiedTerminalContext} :
    wp (setVerifiedTerminal env id terminal) w (fun _ => Evolves fresh quiet w₀)
      (EndsWell fresh quiet w₀) := by
  unfold setVerifiedTerminal
  refine wp_check_bind (fun _ => EndsWell.err hw) fun _ => ?_
  rw [wp_bind]
  refine wp_storedSession hw fun s hs => ?_
  exact wp_publishSession hw hs (.of_status rfl rfl rfl rfl rfl)

theorem wp_forgetMetrics :
    wp forgetMetrics w (fun _ => Evolves fresh quiet w₀) (EndsWell fresh quiet w₀) := by
  simp only [forgetMetrics, wp_bind, onRegistry, wp_zoom, SessionRegistry.clearLatestMetrics,
    wp_modify]
  exact Evolves.outside (hw.tail .clearMetrics) rfl (Shrinks.refl w.db)

end

/-- Every section is a chain of changes, and panics only on a broken index. -/
theorem exec_evolves (fresh quiet : Prop) {cfg : CoreConfig} {sec : CoreSection} (w : World)
    (hfree : fresh → ∀ cmd, sec = .ingest (.sessionStart cmd) → StartsNew w cmd →
      WillBeFree w.registry env.sessionsRank
        (cfg.sessionIdFor cmd.source cmd.externalSessionId))
    (hquiet : quiet → sec = .clearEvents → w.db.events = []) :
    wp (sec.exec cfg env) w (fun _ => Evolves fresh quiet w) (EndsWell fresh quiet w) := by
  have hw : Evolves fresh quiet w w := .refl
  have hpure : ∀ {m : CoreM Unit} {rest : List CoreSection},
      wp m w (fun _ => Evolves fresh quiet w) (EndsWell fresh quiet w) →
      wp (do m; pure rest) w (fun _ => Evolves fresh quiet w) (EndsWell fresh quiet w) :=
    fun h => (wp_bind _ _).2 h
  cases sec with
  | ingest command =>
    refine (wp_bind _ _).2 (wp_ingest hw fun hf cmd hc => ?_)
    exact hfree hf cmd (by rw [hc])
  | tick => exact hpure (wp_tick hw)
  | removeSession id => exact hpure (wp_removeSession hw)
  | clearProcessRoot id => exact hpure (wp_clearProcessRoot hw)
  | setVerifiedTerminal id terminal => exact hpure (wp_setVerifiedTerminal hw)
  | heartbeat =>
    refine hpure ((wp_bind _ _).2 ?_)
    exact wp_queuePayload hw fun hw₁ => wp_flushPending hw₁ fun _ h => h
  | saveSettings settings =>
    exact hpure (wp_onStore_shrinks (shrinks_saveSettings _) hw fun _ _ h => h)
  | applySettings settings =>
    refine hpure ((wp_bind _ _).2 ?_)
    rw [wp_modify, wp_bind]
    exact wp_queuePayload (hw.outside rfl (Shrinks.refl w.db)) fun hw₁ =>
      wp_flushPending hw₁ fun _ h => h
  | recordBuckets frame => exact hpure (wp_recordBuckets hw)
  | applyMetrics frame now => exact hpure (wp_applyMetrics hw)
  | readRetention => exact hw
  | prune retentionMs =>
    exact (wp_bind _ _).2
      (wp_onStore_shrinks (shrinks_pruneWithMetricRetention _ _ _) hw fun _ _ h => h)
  | purgeMetricRows =>
    exact (wp_bind _ _).2 (wp_onStore_shrinks shrinks_purgeMetricHistory hw fun _ _ h => h)
  | forgetMetrics => exact hpure (wp_forgetMetrics hw)
  | purgeEventRows =>
    exact (wp_bind _ _).2 (wp_onStore_shrinks shrinks_purgeSessionEvents hw fun _ _ h => h)
  | clearEvents =>
    refine hpure ?_
    exact hw.tail (.clearEvents fun hq => hquiet hq rfl)

end Handlers

/-! ## Steps -/

/-- No start inserts a session under the identifier of a stored session that stays. -/
def NoOverwrite (cfg : CoreConfig) (s : CoreState) : CoreAct → Prop
  | .advance tid env => ∀ cmd rest,
      s.calls.lookup tid = some (.ingest (.sessionStart cmd) :: rest) → StartsNew s.world cmd →
        WillBeFree s.world.registry env.sessionsRank
          (cfg.sessionIdFor cmd.source cmd.externalSessionId)
  | _ => True

/-- The next section clears the events of the registry while an event is stored. -/
def clearsLate (s : CoreState) : CoreAct → Bool
  | .advance tid _ =>
    match s.calls.lookup tid with
    | some (.clearEvents :: _) => !s.world.db.events.isEmpty
    | _ => false
  | _ => false

/-- The events of the registry are cleared only while no event is stored. -/
def NoLateClear (s : CoreState) (a : CoreAct) : Prop :=
  clearsLate s a = false

section Steps

variable (fresh quiet : Prop) {cfg : CoreConfig} {s t : CoreState} {env : Env}

theorem section_evolves {sec : CoreSection} {rest : List CoreSection} {tid : ℕ}
    (hfresh : fresh → NoOverwrite cfg s (.advance tid env))
    (hquiet : quiet → NoLateClear s (.advance tid env))
    (hsec : s.calls.lookup tid = some (sec :: rest)) :
    wp (sec.exec cfg env) (s.world.entered env) (fun _ => Evolves fresh quiet s.world)
      (EndsWell fresh quiet s.world) := by
  have hentered : Evolves fresh quiet s.world (s.world.entered env) :=
    Evolves.setStore .refl (Shrinks.refl s.world.db)
  refine wp_mono (exec_evolves fresh quiet (s.world.entered env) ?_ ?_)
    (fun _ _ h => hentered.trans h)
    (fun _ _ h => ⟨hentered.trans h.evolves, h.indexed, fun hdup => ?_⟩)
  · rintro hf cmd rfl hnew
    exact hfresh hf cmd rest hsec ⟨hnew.externalSessionId, hnew.label, hnew.workspaceLabel,
      hnew.status, hnew.events, hnew.unknown⟩
  · rintro hq rfl
    have hempty : clearsLate s (.advance tid env) = false := hquiet hq
    simp only [clearsLate, hsec] at hempty
    have hnone : s.world.db.events = [] := by simpa using hempty
    exact hnone
  · obtain ⟨v, hv, hnot⟩ := h.below hdup
    exact ⟨v, hentered.trans hv, hnot⟩

theorem sectionFault_cases {tid : ℕ} {f : Fault} (h : sectionFault cfg s tid env = some f) :
    ∃ sec rest w, s.calls.lookup tid = some (sec :: rest) ∧
      sec.exec cfg env (s.world.entered env) = .error f w := by
  unfold sectionFault at h
  split at h
  · rename_i sec rest hsec
    split at h
    · cases h
    · rename_i g w hexec
      cases h
      exact ⟨sec, rest, w, hsec, hexec⟩
  · cases h

/-- A step is a chain of changes or a restart. -/
theorem step_cases {a : CoreAct} (hfresh : fresh → NoOverwrite cfg s a)
    (hquiet : quiet → NoLateClear s a) (h : coreStep cfg s a = some t) :
    Evolves fresh quiet s.world t.world ∨ ∃ settings,
      t.world.inner = restartedCore cfg settings s.world.db ∧ t.world.db = s.world.db := by
  cases a with
  | call tid call =>
    simp only [coreStep] at h
    split at h
    · cases h
      exact Or.inl .refl
    · cases h
  | advance tid env =>
    simp only [coreStep] at h
    split at h
    · rename_i sec rest hsec
      cases h
      have hwp := section_evolves fresh quiet hfresh hquiet hsec
      left
      cases hexec : sec.exec cfg env (s.world.entered env) with
      | ok more w =>
        have hevolves := wp_ok hwp hexec
        exact hevolves
      | error f w =>
        have hends := wp_error hwp hexec
        exact hends.evolves
    · cases h
      exact Or.inl .refl
    · cases h
  | restart env settings => exact Or.inr ⟨settings, restart_spec h⟩

end Steps

/-- In every reachable state sessions are stored under their identifier. -/
theorem keyed_run {cfg : CoreConfig} {env : Env} {settings : PublicSettings} {db : Database}
    {s₀ s : CoreState} {acts : List CoreAct} (hstart : startCore cfg env settings db = some s₀)
    (hrun : run (coreStep cfg) s₀ acts = some s) : Keyed s.world.registry := by
  have h₀ : Keyed s₀.world.registry := by
    rw [World.registry, (startCore_spec hstart).1]
    exact keyed_restartedCore cfg settings db
  refine Guarded.invariant (I := fun s => Keyed s.world.registry) (fun s a t _ h hstep => ?_) h₀
    (Guarded.trivial _ _ acts) hrun
  rcases step_cases False False False.elim False.elim hstep with he | ⟨settings, hinner, -⟩
  · exact h.evolves he
  · rw [World.registry, hinner]
    exact keyed_restartedCore cfg settings s.world.db

end LlmNotch
