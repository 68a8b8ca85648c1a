import LlmNotch.CoreChanges

/-!
# What holds of every session

An invariant that asks the same of every session, in memory and in the database (`Uniform`), is
kept by the sections of the core if it asks only for what identifies a session (`Nominal`). It
may ask something else of the core as well that no other change breaks (`Steady`,
`SectionProof`).
-/

namespace LlmNotch

open AppCore

/-- Every session satisfies `P`, in memory and in the database, and the core satisfies `A`. -/
structure Uniform (P : AgentSession → Prop) (A : World → Prop) (w : World) : Prop where
  memory : ∀ {id s}, w.registry.sessions.lookup id = some s → P s
  rows : ∀ {row}, row ∈ w.db.sessions → P row
  aside : A w

/-- A property of what identifies a session. -/
def Nominal (P : AgentSession → Prop) : Prop :=
  ∀ ⦃s t : AgentSession⦄, P s → t.identity = s.identity → P t

/-- A property of the core that does not depend on the sessions and the pending payloads. -/
structure Steady (A : World → Prop) : Prop where
  setStore : ∀ {w} store, A w → A (w.setStore store)
  setRegistry : ∀ {w} r, A w → A (w.setRegistry r)
  push : ∀ {w} p, A w → A (w.push p)

/-- The other changes that sections make do not break it either. -/
structure SectionProof (A : World → Prop) : Prop extends Steady A where
  flush : ∀ {w} env, A w → A (w.flush env)
  attention : ∀ {w} id kind now, A w →
    A (w.setAlerts (w.inner.alerts.evaluateAttention id kind now))
  acknowledged : ∀ {w} id, A w → A (w.setAlerts (w.inner.alerts.clearLocalAcknowledgement id))
  settings : ∀ {w} settings, A w → A { w with inner := { w.inner with settings := settings } }
  integrations : ∀ {w} all, A w → A { w with inner := { w.inner with integrations := all } }
  latestMetrics : ∀ {w} frame, A w → A { w with inner := { w.inner with latestMetrics := frame } }

namespace Uniform

variable {cfg : CoreConfig} {P : AgentSession → Prop} {A : World → Prop} {w w' : World}
  {s t : AgentSession} {id : String}

/-- A change of the core beside the sessions. -/
theorem congr (h : Uniform P A w) (hr : w'.registry.sessions = w.registry.sessions)
    (hdb : w'.db.sessions = w.db.sessions) (ha : A w') : Uniform P A w' :=
  ⟨fun hs => h.memory (hr ▸ hs), fun hrow => h.rows (hdb ▸ hrow), ha⟩

variable (hP : Nominal P) (hA : Steady A)

include hA

theorem withSession (h : Uniform P A w) (ht : P t) : Uniform P A (w.withSession id t) := by
  refine ⟨fun {k u} hu => ?_, h.rows, hA.setRegistry _ h.aside⟩
  have hu' : (w.registry.sessions.adjust id fun _ => t).lookup k = some u := hu
  rw [Dict.lookup_adjust] at hu'
  split at hu'
  · obtain ⟨-, -, rfl⟩ := Option.map_eq_some_iff.1 hu'
    exact ht
  · exact h.memory hu'

include hP

/-- Only the identifying columns count. -/
theorem setStore (h : Uniform P A w) {store : Store}
    (hdb : store.db.sessions.map AgentSession.identity =
      w.db.sessions.map AgentSession.identity) : Uniform P A (w.setStore store) := by
  refine ⟨h.memory, fun {row} hrow => ?_, hA.setStore _ h.aside⟩
  have hmem := hdb ▸ List.mem_map_of_mem hrow
  obtain ⟨row', hrow', hi⟩ := List.mem_map.1 hmem
  exact hP (h.rows hrow') hi.symm

/-- A written row has the identity of the row before, or of the session. -/
theorem upsert (h : Uniform P A w) (hs : P s) {store : Store}
    (hdb : Repository.upsertSessionSql s w.db = .ok ((), store.db)) :
    Uniform P A (w.setStore store) := by
  refine ⟨h.memory, fun {row} hrow => ?_, hA.setStore _ h.aside⟩
  have hrow' : row ∈ store.db.sessions := hrow
  rw [(Repository.upsertSessionSql_ok hdb).1] at hrow'
  simp only [upsertRow] at hrow'
  split at hrow'
  · obtain ⟨old, hold, rfl⟩ := List.mem_map.1 hrow'
    split
    · exact hP (h.rows hold) rfl
    · exact h.rows hold
  · rcases List.mem_append.1 hrow' with hold | hnew
    · exact h.rows hold
    · rw [List.mem_singleton.1 hnew]
      exact hs

end Uniform

section Operations

variable {cfg : CoreConfig} {env : Env} {P : AgentSession → Prop} {A : World → Prop}
  {s t : AgentSession}

/-! ## Looking up -/

theorem uniform_requireEvents (source : AgentSource) :
    Keeps (Uniform P A) (requireEvents source) :=
  keeps_bind (keeps_bind keeps_get fun _ => keeps_okOr _ _) fun _ => keeps_ensure _ _

theorem uniform_capabilitiesFor (source : AgentSource) :
    Keeps (Uniform P A) (capabilitiesFor source) :=
  keeps_bind keeps_get fun _ => keeps_okOr _ _

theorem uniform_resolveSessionId (source : AgentSource) (externalSessionId : String) :
    Keeps (Uniform P A) (resolveSessionId source externalSessionId) :=
  keeps_bind keeps_get fun _ => keeps_bind (keeps_okOr _ _) fun _ => keeps_pure _

theorem uniform_resolvedSession (id : String) :
    Yields (Uniform P A) P (resolvedSession id) := by
  intro w hw
  simp only [resolvedSession, wp_bind, wp_get, wp_expect]
  exact ⟨fun _ hs => ⟨hw, hw.memory hs⟩, fun _ => hw⟩

theorem uniform_storedSession (id : String) : Yields (Uniform P A) P (storedSession id) := by
  intro w hw
  simp only [storedSession, wp_bind, wp_get, wp_okOr]
  exact ⟨fun _ hs => ⟨hw, hw.memory hs⟩, fun _ => hw⟩

/-! ## Ingest -/

section

variable (hP : Nominal P) (hA : Steady A)

include hA

theorem uniform_queuePayload (p : StreamPayload) : Keeps (Uniform P A) (queuePayload p) :=
  keeps_modify fun _ h => h.congr rfl rfl (hA.push _ h.aside)

theorem uniform_upsertSession (hs : P s) :
    Keeps (Uniform P A) (onRegistry (SessionRegistry.upsertSession s)) := by
  intro w hw
  simp only [onRegistry, wp_zoom, SessionRegistry.upsertSession, wp_bind, wp_check, wp_modify]
  refine ⟨fun _ _ => ⟨fun {k u} hu => ?_, hw.rows, hA.setRegistry _ hw.aside⟩, fun _ _ => hw⟩
  have hu' : (w.registry.sessions.insert s.id s).lookup k = some u := hu
  rw [Dict.lookup_insert_ite] at hu'
  split at hu'
  · rwa [← Option.some.inj hu']
  · exact hw.memory hu'

/-- An inserted session satisfies the property, and so does the one found in its place. -/
theorem uniform_insertNewSession
    (hnew : ∀ cmd, P (newSession cmd (cfg.sessionIdFor cmd.source cmd.externalSessionId)))
    (cmd : SessionStartCommand) :
    Yields (Uniform P A) (fun r => P r.1) (onRegistry (SessionRegistry.insertNewSession cfg
      cmd.source cmd.externalSessionId (newSession cmd))) := by
  intro w hw
  simp only [onRegistry, wp_zoom, SessionRegistry.insertNewSession, wp_bind, wp_check, wp_get]
  refine ⟨fun _ _ => ?_, fun _ _ => hw⟩
  split
  · simp only [wp_bind, wp_expect, wp_pure]
    exact ⟨fun _ hs => ⟨hw, hw.memory hs⟩, fun _ => hw⟩
  · simp only [wp_bind, wp_ensure, wp_pure]
    refine ⟨fun _ => ?_, fun _ => hw⟩
    set s := newSession cmd (cfg.sessionIdFor cmd.source cmd.externalSessionId)
    have hs : P s := hnew cmd
    have hput := uniform_upsertSession hA hs w hw
    simp only [onRegistry, wp_zoom] at hput
    exact wp_mono hput (fun _ _ h => ⟨h, hs⟩) fun _ _ h => h

include hP

theorem uniform_onStore {α : Type} {m : StoreM α} (hm : StoreShrinks m) :
    Keeps (Uniform P A) (onStore m) := by
  intro w hw
  unfold onStore
  rw [wp_zoom]
  exact wp_mono (hm w.store) (fun _ _ h => hw.setStore hP hA h.sessions)
    fun _ _ h => hw.setStore hP hA h.1.sessions

theorem uniform_storeSession (hs : P s) :
    Keeps (Uniform P A) (onStore (Repository.upsertSession s)) := by
  intro w hw
  unfold onStore Repository.upsertSession
  rw [wp_zoom]
  exact Repository.wp_statement (fun _ db hdb => hw.upsert hP hA hs hdb)
    fun _ _ => hw.setStore hP hA rfl

/-- Assigning what has the identity of a session that is there. -/
theorem uniform_assign (id : String) (hs : P s) (ht : t.identity = s.identity) :
    Yields (Uniform P A) P (assign id t) :=
  fun _ hw => wp_assign_iff.2
    ⟨hw.withSession hA (hP hs ht), hP hs ht⟩

theorem uniform_appendEvent (id : String) (kind : SessionEventKind) (level : EventLevel)
    (summary : String) (toolName : Option String) (occurredAtMs : ℤ) :
    Keeps (Uniform P A) (appendEvent env id kind level summary toolName occurredAtMs) := by
  have hstore : ∀ e, Keeps (Uniform P A) (onStore (Repository.appendEvent e)) := by
    intro e w hw
    unfold onStore Repository.appendEvent
    simp only [wp_zoom, wp_bind]
    refine Repository.wp_statement (fun _ db hdb => ?_) fun _ _ => hw.setStore hP hA rfl
    have hrows : db.sessions = w.db.sessions := by rw [(Repository.insertEventSql_ok hdb).1]
    refine wp_mono (shrinks_trimSessionEvents _ _) (fun _ t h => hw.setStore hP hA ?_)
      fun _ t h => hw.setStore hP hA ?_
    · exact h.sessions.trans (congrArg _ hrows)
    · exact h.1.sessions.trans (congrArg _ hrows)
  have hregistry : ∀ e, Keeps (Uniform P A) (onRegistry (SessionRegistry.appendEvent e)) := by
    intro e w hw
    have hset : ∀ r : SessionRegistry, r.sessions = w.registry.sessions →
        Uniform P A (w.setRegistry r) :=
      fun r hr => hw.congr hr rfl (hA.setRegistry r hw.aside)
    simp only [onRegistry, wp_zoom, SessionRegistry.appendEvent, wp_bind, wp_get, wp_ensure,
      wp_modify, wp_check]
    exact ⟨fun _ => ⟨fun _ _ => hset _ rfl, fun _ _ => hset _ rfl⟩, fun _ => hw⟩
  unfold appendEvent
  refine keeps_bind keeps_get fun _ => keeps_bind (hregistry _) fun _ => ?_
  exact keeps_bind (hstore _) fun _ => keeps_bind (uniform_queuePayload hA _) fun _ => keeps_pure _

theorem uniform_dropSession (id : String) : Keeps (Uniform P A) (dropSession id) := by
  have hstore : Keeps (Uniform P A) (onStore (Repository.removeSession id)) := by
    intro w hw
    unfold onStore Repository.removeSession
    rw [wp_zoom]
    refine Repository.wp_statement (fun _ db hdb => ?_) fun _ _ => hw.setStore hP hA rfl
    obtain rfl := (Prod.mk.inj (Except.ok.inj hdb)).2
    exact ⟨hw.memory, fun hrow => hw.rows (List.mem_of_mem_filter hrow), hA.setStore _ hw.aside⟩
  have hregistry : Keeps (Uniform P A) (onRegistry (SessionRegistry.removeSession id)) := by
    intro w hw
    simp only [onRegistry, wp_zoom, SessionRegistry.removeSession, wp_bind, wp_get, wp_okOr,
      wp_modify]
    refine ⟨fun s _ => ⟨fun {k u} hu => ?_, hw.rows, hA.setRegistry _ hw.aside⟩, fun _ => hw⟩
    have hu' : (w.registry.sessions.erase id).lookup k = some u := hu
    rw [Dict.lookup_erase_ite] at hu'
    split at hu'
    · cases hu'
    · exact hw.memory hu'
  exact keeps_bind hstore fun _ => keeps_bind hregistry fun _ => uniform_queuePayload hA _

theorem uniform_sessionStart
    (hnew : ∀ cmd, P (newSession cmd (cfg.sessionIdFor cmd.source cmd.externalSessionId)))
    (cmd : SessionStartCommand) :
    Keeps (Uniform P A) (sessionStart cfg env cmd) := by
  have hknown : ∀ key at_, Keeps (Uniform P A) (knownKey key at_) := by
    intro key at_
    refine keeps_bind keeps_get fun w => ?_
    split
    · exact keeps_pure _
    · exact uniform_onStore hP hA (shrinks_storeIdempotencyKey _ _)
  have hreplayed : Keeps (Uniform P A) (replayedStart cmd) := by
    unfold replayedStart
    cases cmd.idempotencyKey with
    | none => exact keeps_pure _
    | some key =>
      refine keeps_bind (hknown _ _) fun _ => keeps_bind keeps_get fun _ => ?_
      split
      · exact keeps_pure _
      · refine keeps_bind (fun w hw => ?_) fun _ => keeps_pure _
        exact hw.congr rfl rfl (hA.setRegistry _ hw.aside)
  have hevict : Keeps (Uniform P A) (evict env) := by
    refine keeps_bind keeps_get fun _ => keeps_bind (keeps_check _) fun candidate => ?_
    cases candidate with
    | none => exact keeps_pure _
    | some id => exact uniform_dropSession hP hA id
  have hopen : ∀ s : AgentSession, P s → Keeps (Uniform P A) (openSession env cmd s) := by
    intro s hs
    refine keeps_bind (uniform_storeSession hP hA hs) fun _ => ?_
    refine keeps_bind (uniform_appendEvent hP hA _ _ _ _ _ _) fun e => ?_
    have ht : P { s with lastEventAtMs := cmd.occurredAtMs } := hP hs rfl
    refine keeps_bind (uniform_upsertSession hA ht) fun _ => ?_
    refine keeps_bind (uniform_storeSession hP hA ht) fun _ => ?_
    exact keeps_bind (uniform_queuePayload hA _) fun _ => keeps_pure _
  have hcreate : Keeps (Uniform P A) (createSession cfg env cmd) := by
    refine keeps_bind hevict fun _ => (uniform_insertNewSession hA hnew cmd).bind fun r hr => ?_
    dsimp only
    split
    · exact keeps_pure _
    · exact hopen r.1 hr
  unfold sessionStart
  refine keeps_bind (keeps_check _) fun _ => keeps_bind (keeps_check _) fun _ => ?_
  refine keeps_bind (keeps_check _) fun _ => keeps_bind hreplayed fun replayed => ?_
  cases replayed with
  | some session => exact keeps_pure _
  | none =>
    refine keeps_bind (uniform_requireEvents _) fun _ => keeps_bind (keeps_check _) fun _ => ?_
    refine keeps_bind keeps_get fun w => ?_
    split
    · exact keeps_pure _
    · exact hcreate

/-- The end of most handlers. -/
theorem uniform_publish (id : String) (kind : SessionEventKind) (level : EventLevel)
    (summary : String) (toolName : Option String) (occurredAtMs : ℤ)
    (result : SessionEvent → IngestResult) (hs : P s) :
    Keeps (Uniform P A) (do
      onStore (Repository.upsertSession s)
      let event ← appendEvent env id kind level summary toolName occurredAtMs
      queuePayload (.sessionUpsert t)
      pure (result event)) := by
  refine keeps_bind (uniform_storeSession hP hA hs) fun _ => ?_
  refine keeps_bind (uniform_appendEvent hP hA _ _ _ _ _ _) fun _ => ?_
  exact keeps_bind (uniform_queuePayload hA _) fun _ => keeps_pure _

theorem uniform_sessionUpdate (cmd : SessionUpdateCommand) :
    Keeps (Uniform P A) (sessionUpdate env cmd) := by
  -- each of the fields is checked and assigned, or kept
  have hset : ∀ (x : Except CoreError Unit) (id : String) {s t : AgentSession}, P s →
      t.identity = s.identity → Yields (Uniform P A) P (do check x; assign id t) :=
    fun x id _ _ hs ht => fun w hw => (wp_bind _ _).2 (wp_mono (keeps_check x w hw)
      (fun _ w' h => uniform_assign hP hA id hs ht w' h) fun _ _ h => h)
  have hkeep : ∀ {s : AgentSession}, P s → Yields (Uniform P A) P (pure s : CoreM AgentSession) :=
    fun hs w hw => ⟨hw, hs⟩
  have hlabel : ∀ id (s : AgentSession) label, P s →
      Yields (Uniform P A) P (updateLabel id s label) := by
    intro id s label hs
    cases label with
    | none => exact hkeep hs
    | some label => exact hset _ id hs rfl
  have hworkspace : ∀ id (s : AgentSession) label, P s →
      Yields (Uniform P A) P (updateWorkspaceLabel id s label) := by
    intro id s label hs
    cases label with
    | none => exact hkeep hs
    | some label => exact hset _ id hs rfl
  have hstatus : ∀ id (s : AgentSession) status, P s →
      Yields (Uniform P A) P (updateStatus id s status) := by
    intro id s status hs
    cases status with
    | none => exact hkeep hs
    | some status => exact hset _ id hs rfl
  unfold sessionUpdate
  refine keeps_bind (keeps_check _) fun _ => keeps_bind (uniform_requireEvents _) fun _ => ?_
  refine keeps_bind (uniform_resolveSessionId _ _) fun id => ?_
  refine (uniform_resolvedSession id).bind fun s hs => (hlabel id s _ hs).bind fun t ht => ?_
  refine (hworkspace id t _ ht).bind fun u hu => (hstatus id u _ hu).bind fun v hv => ?_
  exact (uniform_assign hP hA id hv (by rfl)).bind fun x hx => uniform_publish hP hA id _ _ _ _ _ _ hx

theorem uniform_sessionEnd (cmd : SessionEndCommand) :
    Keeps (Uniform P A) (sessionEnd env cmd) := by
  unfold sessionEnd
  refine keeps_bind (keeps_check _) fun _ => keeps_bind (uniform_requireEvents _) fun _ => ?_
  refine keeps_bind (uniform_resolveSessionId _ _) fun id => ?_
  refine (uniform_resolvedSession id).bind fun s hs => keeps_bind (keeps_ensure _ _) fun _ => ?_
  refine keeps_bind (keeps_check _) fun _ => ?_
  refine (uniform_assign hP hA id hs (by rfl)).bind fun t ht => ?_
  refine keeps_bind (uniform_storeSession hP hA ht) fun _ => keeps_bind (keeps_check _) fun _ => ?_
  refine keeps_bind (uniform_appendEvent hP hA _ _ _ _ _ _) fun _ => ?_
  exact keeps_bind (uniform_queuePayload hA _) fun _ => keeps_pure _

theorem uniform_touchSession (id : String) (occurredAtMs : ℤ) :
    Keeps (Uniform P A) (touchSession id occurredAtMs) := by
  intro w hw
  unfold touchSession
  rw [wp_bind, wp_get]
  cases hs : w.inner.registry.get id with
  | none => exact hw
  | some s =>
    exact (uniform_assign hP hA id (hw.memory hs) (by rfl)).bind
      (fun t ht => uniform_storeSession hP hA ht) w hw

theorem uniform_lifecycleEvent (cmd : LifecycleEventCommand) :
    Keeps (Uniform P A) (lifecycleEvent env cmd) := by
  unfold lifecycleEvent
  refine keeps_bind (keeps_check _) fun _ => keeps_bind (keeps_check _) fun _ => ?_
  refine keeps_bind (uniform_requireEvents _) fun _ => ?_
  refine keeps_bind (uniform_resolveSessionId _ _) fun id => ?_
  refine keeps_bind (uniform_touchSession hP hA id _) fun _ => ?_
  exact keeps_bind (uniform_appendEvent hP hA _ _ _ _ _ _) fun _ => keeps_pure _

theorem uniform_toolEvent (cmd : ToolEventCommand) :
    Keeps (Uniform P A) (toolEvent env cmd) := by
  unfold toolEvent
  refine keeps_bind (keeps_check _) fun _ => keeps_bind (keeps_check _) fun _ => ?_
  refine keeps_bind (keeps_check _) fun _ => keeps_bind (uniform_requireEvents _) fun _ => ?_
  refine keeps_bind (uniform_resolveSessionId _ _) fun id => ?_
  refine keeps_bind (uniform_touchSession hP hA id _) fun _ => ?_
  exact keeps_bind (uniform_appendEvent hP hA _ _ _ _ _ _) fun _ => keeps_pure _

theorem uniform_registerProcessRoot (cmd : ProcessRootCommand) :
    Keeps (Uniform P A) (registerProcessRoot env cmd) := by
  unfold registerProcessRoot
  refine keeps_bind (keeps_check _) fun _ => keeps_bind (uniform_capabilitiesFor _) fun c => ?_
  refine keeps_bind (keeps_ensure _ _) fun _ => ?_
  refine keeps_bind (uniform_resolveSessionId _ _) fun id => ?_
  refine (uniform_resolvedSession id).bind fun s hs => ?_
  refine (uniform_assign hP hA id hs (by rfl)).bind fun t ht => ?_
  exact uniform_publish hP hA id _ _ _ _ _ _ ht

theorem uniform_refreshMetric (frame : MetricsFrame) (id : String) :
    Keeps (Uniform P A) (refreshMetric frame id) := by
  intro w hw
  unfold refreshMetric
  rw [wp_bind, wp_get]
  cases hs : w.inner.registry.get id with
  | none => exact hw
  | some s =>
    exact (uniform_assign hP hA id (hw.memory hs) (by rfl)).bind
      (fun t ht => uniform_storeSession hP hA ht) w hw

theorem uniform_markStale (now : ℤ) (id : String) : Keeps (Uniform P A) (markStale now id) := by
  intro w hw
  unfold markStale
  simp only [wp_bind, wp_get, wp_expect]
  refine ⟨fun s hs => keeps_onlyIf ?_ w hw, fun _ => hw⟩
  refine (uniform_assign hP hA id (hw.memory hs) (by rfl)).bind fun t ht => ?_
  exact keeps_bind (uniform_storeSession hP hA ht) fun _ => uniform_queuePayload hA _

theorem uniform_recordBuckets (frame : MetricsFrame) (now : ℤ) :
    Keeps (Uniform P A) (recordBuckets frame now) := by
  have hbucket : ∀ scope id at_ sample,
      Keeps (Uniform P A) (onStore (Repository.recordMetricBucket scope id at_ sample)) :=
    fun _ _ _ _ => uniform_onStore hP hA (shrinks_recordMetricBucket _ _ _ _)
  refine keeps_bind (hbucket _ _ _ _) fun _ => keeps_bind (hbucket _ _ _ _) fun _ => ?_
  exact keeps_forM fun _ _ => hbucket _ _ _ _

end

/-! ## Sections -/

variable (hP : Nominal P) (hA : SectionProof A)

include hA

theorem uniform_flushPending : Keeps (Uniform P A) (flushPending env) := by
  refine keeps_modify fun w h => h.congr ?_ ?_ (hA.flush env h.aside)
  all_goals
    unfold World.flush
    split <;> rfl

include hP

theorem uniform_attention (cmd : AttentionCommand) :
    Keeps (Uniform P A) (attention env cmd) := by
  unfold attention
  refine keeps_bind (keeps_check _) fun _ => keeps_bind (keeps_check _) fun _ => ?_
  refine keeps_bind (uniform_capabilitiesFor _) fun c => keeps_bind (keeps_ensure _ _) fun _ => ?_
  refine keeps_bind (uniform_resolveSessionId _ _) fun id => ?_
  refine (uniform_resolvedSession id).bind fun s hs => ?_
  refine (uniform_assign hP hA.1 id hs (by rfl)).bind fun t ht => ?_
  refine keeps_bind (uniform_storeSession hP hA.1 ht) fun _ => ?_
  refine keeps_bind (keeps_modify fun _ h => h.congr rfl rfl (hA.attention _ _ _ h.aside)) ?_
  refine fun _ => keeps_bind (uniform_appendEvent hP hA.1 _ _ _ _ _ _) fun _ => ?_
  exact keeps_bind (uniform_queuePayload hA.1 _) fun _ => keeps_pure _

theorem uniform_acknowledgeAttention (cmd : AcknowledgeAttentionCommand) :
    Keeps (Uniform P A) (acknowledgeAttention cmd) := by
  unfold acknowledgeAttention
  refine keeps_bind (keeps_check _) fun _ => ?_
  refine (uniform_storedSession _).bind fun s hs => ?_
  refine (uniform_assign hP hA.1 _ hs (by rfl)).bind fun t ht => ?_
  refine keeps_bind (uniform_storeSession hP hA.1 ht) fun _ => ?_
  refine keeps_bind (keeps_modify fun _ h => h.congr rfl rfl (hA.acknowledged _ h.aside)) ?_
  exact fun _ => keeps_bind (uniform_queuePayload hA.1 _) fun _ => keeps_pure _

theorem uniform_ingest
    (hnew : ∀ cmd, P (newSession cmd (cfg.sessionIdFor cmd.source cmd.externalSessionId)))
    (command : IngestCommand) :
    Keeps (Uniform P A) (ingest cfg env command) := by
  have hhandle : Keeps (Uniform P A) (handleIngest cfg env command) := by
    cases command with
    | sessionStart cmd => exact uniform_sessionStart hP hA.1 hnew cmd
    | sessionUpdate cmd => exact uniform_sessionUpdate hP hA.1 cmd
    | sessionEnd cmd => exact uniform_sessionEnd hP hA.1 cmd
    | lifecycleEvent cmd => exact uniform_lifecycleEvent hP hA.1 cmd
    | toolEvent cmd => exact uniform_toolEvent hP hA.1 cmd
    | attention cmd => exact uniform_attention hP hA cmd
    | registerProcessRoot cmd => exact uniform_registerProcessRoot hP hA.1 cmd
    | integrationHealth cmd =>
      refine keeps_bind (uniform_onStore hP hA.1 (shrinks_upsertIntegration _)) fun _ => ?_
      refine keeps_bind (keeps_modify fun _ h => h.congr rfl rfl (hA.integrations _ h.aside)) ?_
      exact fun _ => keeps_bind (uniform_queuePayload hA.1 _) fun _ => keeps_pure _
    | acknowledgeAttention cmd => exact uniform_acknowledgeAttention hP hA cmd
  exact keeps_bind hhandle fun _ => keeps_bind (uniform_flushPending hA) fun _ => keeps_pure _

theorem uniform_publishSession (id : String) (hs : P s) (ht : t.identity = s.identity) :
    Keeps (Uniform P A) (publish env id t) := by
  refine (uniform_assign hP hA.1 id hs ht).bind fun u hu => ?_
  refine keeps_bind (uniform_storeSession hP hA.1 hu) fun _ => ?_
  exact keeps_bind (uniform_queuePayload hA.1 _) fun _ => uniform_flushPending hA

theorem uniform_forgetMetrics : Keeps (Uniform P A) forgetMetrics := by
  refine keeps_bind (fun w hw => ?_) fun _ => keeps_modify fun _ h =>
    h.congr rfl rfl (hA.latestMetrics _ h.aside)
  simp only [onRegistry, wp_zoom, SessionRegistry.clearLatestMetrics, wp_modify]
  refine ⟨fun {id t} ht => ?_, hw.rows, hA.setRegistry _ hw.aside⟩
  have ht' : (w.registry.sessions.mapValues
      fun s => { s with latestMetric := none }).lookup id = some t := ht
  rw [Dict.lookup_mapValues] at ht'
  obtain ⟨s, hs, rfl⟩ := Option.map_eq_some_iff.1 ht'
  exact hP (hw.memory hs) rfl

/-- Every section keeps the invariant, if the evaluation of a sample does. -/
theorem uniform_exec
    (hnew : ∀ cmd, P (newSession cmd (cfg.sessionIdFor cmd.source cmd.externalSessionId)))
    {sec : CoreSection} (hsec : ∀ frame now, sec = .applyMetrics frame now →
      Keeps (Uniform P A) (applyMetrics env frame now)) :
    Keeps (Uniform P A) (sec.exec cfg env) := by
  have hpure : ∀ {m : CoreM Unit} {rest : List CoreSection}, Keeps (Uniform P A) m →
      Keeps (Uniform P A) (do m; pure rest) :=
    fun h => keeps_bind h fun _ => keeps_pure _
  cases sec with
  | ingest command => exact keeps_bind (uniform_ingest hP hA hnew command) fun _ => keeps_pure _
  | tick =>
    refine hpure (keeps_bind (keeps_bind keeps_get fun _ => ?_) fun _ => uniform_flushPending hA)
    exact keeps_forM fun id _ => uniform_markStale hP hA.1 _ id
  | removeSession id =>
    refine hpure (keeps_bind (keeps_check _) fun _ => ?_)
    refine (uniform_storedSession id).bind fun _ _ => ?_
    exact keeps_bind (uniform_dropSession hP hA.1 id) fun _ => uniform_flushPending hA
  | clearProcessRoot id =>
    refine hpure (keeps_bind (keeps_check _) fun _ => ?_)
    exact (uniform_storedSession id).bind fun s hs =>
      keeps_onlyIf (uniform_publishSession hP hA id hs (by rfl))
  | setVerifiedTerminal id terminal =>
    refine hpure (keeps_bind (keeps_check _) fun _ => ?_)
    exact (uniform_storedSession id).bind fun s hs => uniform_publishSession hP hA id hs (by rfl)
  | heartbeat =>
    exact hpure (keeps_bind (uniform_queuePayload hA.1 _) fun _ => uniform_flushPending hA)
  | saveSettings settings => exact hpure (uniform_onStore hP hA.1 (shrinks_saveSettings _))
  | applySettings settings =>
    refine hpure (keeps_bind (keeps_modify fun _ h => ?_) fun _ => ?_)
    · exact h.congr rfl rfl (hA.settings _ h.aside)
    · exact keeps_bind (uniform_queuePayload hA.1 _) fun _ => uniform_flushPending hA
  | recordBuckets frame => exact hpure (uniform_recordBuckets hP hA.1 _ _)
  | applyMetrics frame now => exact hpure (hsec frame now rfl)
  | readRetention => exact keeps_bind keeps_get fun _ => keeps_pure _
  | prune retentionMs =>
    exact keeps_bind (uniform_onStore hP hA.1 (shrinks_pruneWithMetricRetention _ _ _))
      fun _ => keeps_pure _
  | purgeMetricRows =>
    exact keeps_bind (uniform_onStore hP hA.1 shrinks_purgeMetricHistory) fun _ => keeps_pure _
  | forgetMetrics => exact hpure (uniform_forgetMetrics hP hA)
  | purgeEventRows =>
    exact keeps_bind (uniform_onStore hP hA.1 shrinks_purgeSessionEvents) fun _ => keeps_pure _
  | clearEvents =>
    exact hpure fun _ hw => hw.congr rfl rfl (hA.setRegistry _ hw.aside)

end Operations

end LlmNotch
