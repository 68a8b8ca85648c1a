import LlmNotch.SessionFates

/-!
# What a call of the core comes to

The handlers of the core end in one of three ways : the command is carried out, the core
refuses it, or the repository fails (`StoreFails`). For the commands the host sends, the
condition on which they are carried out and the world they leave otherwise (`RefusedAt`) are
stated here once. A command that is carried out writes one session and records an event of it
(`Noted`).
-/

namespace LlmNotch

open AppCore

/-! ## Failures of the repository -/

/-- What SQLite reports of the tables of sessions and events, and of the file system. -/
def sqliteErrors : List String :=
  [diskError, duplicateSequence,
    "UNIQUE constraint failed: sessions.source, sessions.external_session_id",
    "UNIQUE constraint failed: session_events.id", "FOREIGN KEY constraint failed"]

/-- The repository failed. -/
def StoreFails (f : Fault) : Prop :=
  ∃ detail ∈ sqliteErrors, f = .other detail

/-- The core refused the call, for the condition does not hold, and left `v`; or the repository
failed. -/
def RefusedAt (c : Prop) (v : World) (f : Fault) (w' : World) : Prop :=
  StoreFails f ∨ (∃ e, f = .err e) ∧ ¬ c ∧ w' = v

theorem diskError_mem : diskError ∈ sqliteErrors := by
  simp [sqliteErrors]

variable {db : Database} {detail : String}

theorem upsertSessionSql_fails {s : AgentSession}
    (h : detail = diskError ∨ Repository.upsertSessionSql s db = .error detail) :
    StoreFails (.other detail) := by
  refine ⟨detail, ?_, rfl⟩
  rcases h with rfl | h
  · exact diskError_mem
  · unfold Repository.upsertSessionSql at h
    split at h
    · cases h
      simp [sqliteErrors]
    · cases h

theorem insertEventSql_fails {e : SessionEvent}
    (h : detail = diskError ∨ Repository.insertEventSql e db = .error detail) :
    StoreFails (.other detail) := by
  refine ⟨detail, ?_, rfl⟩
  rcases h with rfl | h
  · exact diskError_mem
  · unfold Repository.insertEventSql at h
    split at h
    · cases h
      simp [sqliteErrors]
    · split at h
      · cases h
        simp [sqliteErrors]
      · split at h
        · cases h
          simp [sqliteErrors]
        · cases h

/-- A statement that breaks no constraint. -/
theorem execute_fails {α : Type} {a : α}
    (h : detail = diskError ∨ (Except.ok a : Except String α) = .error detail) :
    StoreFails (.other detail) := by
  rcases h with rfl | h
  · exact ⟨_, diskError_mem, rfl⟩
  · cases h

/-! ## Noted events -/

/-- The sessions stay, and events were recorded, at least one of them of session `id`. -/
structure Noted (id : String) (w w' : World) : Prop where
  sessions : w'.registry.sessions = w.registry.sessions
  externalIndex : w'.registry.externalIndex = w.registry.externalIndex
  integrations : w'.inner.integrations = w.inner.integrations
  later : w.registry.nextEventSequence id < w'.registry.nextEventSequence id
  grows : ∀ k, w.registry.nextEventSequence k ≤ w'.registry.nextEventSequence k

theorem integrations_flush (w : World) (env : Env) :
    (w.flush env).inner.integrations = w.inner.integrations := by
  unfold World.flush
  split <;> rfl

theorem Noted.flush {id : String} {w w' : World} (h : Noted id w w') (env : Env) :
    Noted id w (w'.flush env) where
  sessions := by rw [registry_flush]; exact h.sessions
  externalIndex := by rw [registry_flush]; exact h.externalIndex
  integrations := by rw [integrations_flush]; exact h.integrations
  later := by rw [registry_flush]; exact h.later
  grows k := by rw [registry_flush]; exact h.grows k

section Rules

variable {w : World} {env : Env} {α : Type}

theorem wp_storeSession_outcome {s : AgentSession} {Q : Unit → World → Prop}
    (hQ : ∀ store, Repository.upsertSessionSql s w.db = .ok ((), store.db) →
      Q () (w.setStore store)) :
    wp (onStore (Repository.upsertSession s)) w Q (fun f _ => StoreFails f) := by
  unfold onStore Repository.upsertSession
  rw [wp_zoom]
  exact Repository.wp_statement (fun _ _ hdb => hQ _ hdb) fun _ hd => upsertSessionSql_fails hd

variable {id : String} {kind : SessionEventKind}

theorem wp_trimSessionEvents_outcome {s : Store} {Q : Unit → Store → Prop} (hQ : ∀ t, Q () t) :
    wp (Repository.trimSessionEvents id) s Q (fun f _ => StoreFails f) := by
  unfold Repository.trimSessionEvents Repository.query Repository.execute
  rw [wp_bind]
  refine Repository.wp_statement (fun count db _ => ?_) fun detail hd => ?_
  · rw [wp_onlyIf]
    refine ⟨fun _ => ?_, fun _ => hQ _⟩
    exact Repository.wp_statement (fun _ _ _ => hQ _) fun _ hd => execute_fails hd
  · exact execute_fails hd

theorem wp_appendEvent_outcome {level : EventLevel} {summary : String} {toolName : Option String}
    {occurredAtMs : ℤ} {Q : SessionEvent → World → Prop}
    (hs : (w.registry.sessions.lookup id).isSome = true)
    (hQ : ∀ e w', e.sessionId = id → Noted id w w' → Q e w') :
    wp (appendEvent env id kind level summary toolName occurredAtMs) w Q
      (fun f _ => StoreFails f) := by
  unfold appendEvent
  rw [wp_bind, wp_get, wp_bind, onRegistry, wp_zoom]
  refine SessionRegistry.wp_appendEvent hs rfl ?_
  rw [wp_bind, onStore, wp_zoom, Repository.appendEvent, wp_bind]
  refine Repository.wp_statement (fun _ db _ => ?_) fun _ hd => insertEventSql_fails hd
  refine wp_trimSessionEvents_outcome fun store => ?_
  rw [wp_bind]
  refine hQ _ _ rfl ⟨rfl, rfl, rfl, ?_, fun k => ?_⟩
  · show _ < (w.registry.pushEvent _).nextEventSequence id
    rw [SessionRegistry.nextEventSequence_pushEvent, if_pos rfl]
    exact Nat.lt_succ_self _
  · show _ ≤ (w.registry.pushEvent _).nextEventSequence k
    rw [SessionRegistry.nextEventSequence_pushEvent]
    split
    · rename_i hk
      rw [hk]
      exact Nat.le_succ _
    · exact Nat.le_refl _

/-- The end of the handlers that announce a session. -/
theorem wp_announce_outcome {s t : AgentSession} {level : EventLevel} {summary : String}
    {occurredAtMs : ℤ} {result : SessionEvent → IngestResult} {Q : IngestResult → World → Prop}
    (hs : w.registry.sessions.lookup id = some s)
    (hQ : ∀ e w', e.sessionId = id → Noted id w w' → Q (result e) w') :
    wp (do
      let event ← appendEvent env id kind level summary none occurredAtMs
      queuePayload (.sessionUpsert t)
      pure (result event)) w Q (fun f _ => StoreFails f) := by
  rw [wp_bind]
  refine wp_appendEvent_outcome (Option.isSome_iff_exists.2 ⟨s, hs⟩) fun e w' he hw' => ?_
  exact hQ e _ he ⟨hw'.sessions, hw'.externalIndex, hw'.integrations, hw'.later, hw'.grows⟩

end Rules

/-! ## Sessions under their keys -/

/-- The index leads from the key of every stored session to it. A start that overwrites a session
keeps this, though it leaves an entry of the index that leads to a session with another key. -/
def Findable (r : SessionRegistry) : Prop :=
  ∀ id s, r.sessions.lookup id = some s → r.externalIndex.lookup s.key = some id

namespace Findable

variable {r r' : SessionRegistry}

theorem of_eq (h : Findable r) (hs : r'.sessions = r.sessions)
    (hi : r'.externalIndex = r.externalIndex) : Findable r' := by
  intro id s hid
  rw [hi]
  exact h _ _ (hs ▸ hid)

/-- Replacing a stored session by one with the same key. -/
theorem replace (h : Findable r) (hi : ∀ k, r'.externalIndex.lookup k = r.externalIndex.lookup k)
    (hr : ∀ {id t}, r'.sessions.lookup id = some t →
      ∃ s, r.sessions.lookup id = some s ∧ t.key = s.key) : Findable r' := by
  intro id t ht
  obtain ⟨s, hs, hkey⟩ := hr ht
  rw [hi, hkey]
  exact h _ _ hs

variable {s : AgentSession}

theorem insert (h : Findable r) (hk : r.externalIndex.lookup s.key = none) :
    Findable { r with
      externalIndex := r.externalIndex.insert s.key s.id
      sessions := r.sessions.insert s.id s } := by
  intro id t ht
  simp only [Dict.lookup_insert_ite] at ht ⊢
  split at ht
  · rename_i hid
    cases ht
    rw [if_pos rfl, hid]
  · have hkey : t.key ≠ s.key := by
      intro he
      rw [← he, h _ _ ht] at hk
      cases hk
    rw [if_neg hkey]
    exact h _ _ ht

theorem remove {id : String} (h : Findable r) (hs : r.sessions.lookup id = some s) :
    Findable { r with
      sessions := r.sessions.erase id
      externalIndex := r.externalIndex.erase s.key
      events := r.events.erase id } := by
  intro i t ht
  simp only [Dict.lookup_erase_ite] at ht ⊢
  split at ht
  · cases ht
  · rename_i hne
    have hkey : t.key ≠ s.key := by
      intro he
      have hi := h _ _ ht
      rw [he, h _ _ hs] at hi
      exact hne (Option.some.inj hi).symm
    rw [if_neg hkey]
    exact h _ _ ht

theorem change {fresh quiet : Prop} {w w' : World} (h : Findable w.registry)
    (hc : Change fresh quiet w w') : Findable w'.registry := by
  cases hc with
  | @assign id s t hs ht =>
    refine h.replace (fun _ => rfl) fun {i u} hu => ?_
    have hadjust : (w.registry.sessions.adjust id fun _ => t).lookup i = some u := hu
    rw [Dict.lookup_adjust, hs] at hadjust
    split at hadjust
    · rename_i hi
      cases hadjust
      exact ⟨s, hi ▸ hs, ht.key⟩
    · exact ⟨u, hadjust, rfl⟩
  | insert hk hlen hfresh => exact h.insert hk
  | @reinsert s t hs ht hk =>
    refine h.replace (fun k => ?_) fun {i u} hu => ?_
    · show (w.registry.externalIndex.insert _ _).lookup k = _
      rw [Dict.lookup_insert_ite]
      split
      · rename_i he
        rw [he, hk]
      · rfl
    · have hinsert : (w.registry.sessions.insert t.id t).lookup i = some u := hu
      rw [Dict.lookup_insert_ite] at hinsert
      split at hinsert
      · rename_i hi
        cases hinsert
        exact ⟨s, hi ▸ hs, ht.key⟩
      · exact ⟨u, hinsert, rfl⟩
  | clearMetrics =>
    refine h.replace (fun _ => rfl) fun {i t} ht => ?_
    have hmap : (w.registry.sessions.mapValues
        fun s => { s with latestMetric := none }).lookup i = some t := ht
    rw [Dict.lookup_mapValues] at hmap
    obtain ⟨s, hs, rfl⟩ := Option.map_eq_some_iff.1 hmap
    exact ⟨s, hs, rfl⟩
  | remove hs hrow hev => exact h.remove hs
  | store => exact h
  | pushEvent => exact h.of_eq rfl rfl
  | storeEvent => exact h
  | removeRows => exact h
  | clearEvents => exact h.of_eq rfl rfl
  | other hr hdb => exact h.of_eq hr.sessions hr.externalIndex

theorem evolves {fresh quiet : Prop} {w w' : World} (h : Findable w.registry)
    (he : Evolves fresh quiet w w') : Findable w'.registry := by
  induction he with
  | refl => exact h
  | tail _ hc ih => exact ih.change hc

/-- A stored session is the one its source and external identifier resolve to. -/
theorem resolve (h : Findable r) {id : String} (hs : r.sessions.lookup id = some s) :
    r.resolveExternal s.source s.externalSessionId = some s := by
  have hindex : r.externalIndex.lookup (externalKey s.source s.externalSessionId) = some id := h _ _ hs
  rw [SessionRegistry.resolveExternal, hindex]
  exact hs

/-- No other stored session has its source and external identifier. -/
theorem unique (h : Findable r) {i j : String} {t : AgentSession}
    (hs : r.sessions.lookup i = some s) (ht : r.sessions.lookup j = some t)
    (hsource : s.source = t.source) (hext : s.externalSessionId = t.externalSessionId) : s = t := by
  have hres := h.resolve hs
  rw [hsource, hext, h.resolve ht] at hres
  exact (Option.some.inj hres).symm

end Findable

/-- In every reachable state sessions are found under their keys. -/
theorem findable_run {cfg : CoreConfig} {env : Env} {settings : PublicSettings} {s₀ s : CoreState}
    {acts : List CoreAct} (hdb : DistinctRows db.sessions)
    (hstart : startCore cfg env settings db = some s₀)
    (hrun : run (coreStep cfg) s₀ acts = some s) : Findable s.world.registry := by
  have hrestarted : ∀ {settings : PublicSettings} {db : Database}, DistinctRows db.sessions →
      Findable (restartedCore cfg settings db).registry :=
    fun hd _ _ => (indexed_restartedCore hd).reachable
  have h₀ : Findable s₀.world.registry ∧ DistinctRows s₀.world.db.sessions := by
    rw [World.registry, (startCore_spec hstart).1, (startCore_spec hstart).2]
    exact ⟨hrestarted hdb, hdb⟩
  refine (Guarded.invariant (I := fun s => Findable s.world.registry ∧
    DistinctRows s.world.db.sessions) (fun s a t _ h hstep => ?_) h₀ (Guarded.trivial _ _ acts)
    hrun).1
  rcases step_cases False False False.elim False.elim hstep with he | ⟨settings, hinner, hd⟩
  · exact ⟨h.1.evolves he, he.distinctRows h.2⟩
  · rw [World.registry, hinner, hd]
    exact ⟨hrestarted h.2, h.2⟩

/-! ## Admission -/

/-- The identifier is valid, and the integration of the source reports events. -/
structure Reporting (w : World) (source : AgentSource) (externalSessionId : String) : Prop where
  valid : validateExternalSessionId externalSessionId = .ok ()
  events : ∃ c, w.inner.integrations.find? (·.source = source) = some c ∧ c.events = true

theorem Reporting.congr {w w' : World} {source : AgentSource} {externalSessionId : String}
    (h : Reporting w source externalSessionId)
    (hi : w'.inner.integrations = w.inner.integrations) : Reporting w' source externalSessionId :=
  ⟨h.valid, by rw [hi]; exact h.events⟩

section Outcomes

variable {w : World} {env : Env} {source : AgentSource} {externalSessionId : String}
  {s : AgentSession}

theorem admitted_iff_reporting
    (hres : w.registry.resolveExternal source externalSessionId = some s) :
    Admitted w source externalSessionId s ↔ Reporting w source externalSessionId :=
  ⟨fun h => ⟨h.valid, h.events⟩, fun h => ⟨h.valid, h.events, hres⟩⟩

theorem not_admitted_of_not_reporting (h : ¬ Reporting w source externalSessionId) (t : AgentSession) :
    ¬ Admitted w source externalSessionId t :=
  fun ha => h ⟨ha.valid, ha.events⟩

theorem lookup_of_resolve (hk : Keyed w.registry)
    (hres : w.registry.resolveExternal source externalSessionId = some s) :
    w.registry.sessions.lookup s.id = some s := by
  obtain ⟨id, -, hid⟩ := Option.bind_eq_some_iff.1 hres
  rw [hk.id hid]
  exact hid

/-! ## Session end -/

/-- The session may end so. -/
structure Endable (w : World) (s : AgentSession) (cmd : SessionEndCommand) : Prop where
  reports : Reporting w cmd.source cmd.externalSessionId
  valid : isValidTransition s.status cmd.status = true

variable {cmd : SessionUpdateCommand} {Q : IngestResult → World → Prop} {E : Fault → World → Prop}

theorem wp_sessionEnd_outcome {cmd : SessionEndCommand} (hk : Keyed w.registry)
    (hres : w.registry.resolveExternal cmd.source cmd.externalSessionId = some s)
    (hfinal : cmd.status = .completed ∨ cmd.status = .failed)
    (hsummary : validateEventSummary (cmd.summary.getD "Session ended") = .ok ())
    (hQ : Endable w s cmd → ∀ r w', Noted s.id (w.withSession s.id (ended s cmd)) w' → Q r w') :
    wp (sessionEnd env cmd) w Q (RefusedAt (Endable w s cmd) w) := by
  have hs := lookup_of_resolve hk hres
  by_cases hreports : Reporting w cmd.source cmd.externalSessionId
  · refine (wp_admitted_iff hk ((admitted_iff_reporting hres).2 hreports)).2 ?_
    rw [wp_bind, wp_ensure]
    refine ⟨fun _ => ?_, fun hno => by simp [hfinal] at hno⟩
    refine wp_check_bind (fun hbad e => Or.inr ⟨⟨e, rfl⟩, fun hc => hbad ?_, rfl⟩) fun hvalid => ?_
    · rw [validateTransition, if_pos hc.valid]
    have hc : Endable w s cmd := ⟨hreports, isValidTransition_of_validate hvalid⟩
    rw [wp_bind, wp_assign_iff, wp_bind]
    refine wp_mono (wp_storeSession_outcome fun store _ => ?_) (fun _ _ h => h)
      fun f w' hf => Or.inl hf
    dsimp only
    rw [hsummary, wp_bind, wp_check]
    refine ⟨fun _ _ => ?_, fun e he => by cases he⟩
    refine wp_mono (wp_announce_outcome (lookup_withSession (ended s cmd) hs) fun e w' _ hw' => ?_)
      (fun _ _ h => h) fun _ _ hf => Or.inl hf
    exact hQ hc _ _ ⟨hw'.sessions, hw'.externalIndex, hw'.integrations, hw'.later, hw'.grows⟩
  · refine wp_not_admitted hk (not_admitted_of_not_reporting hreports) fun e => ?_
    exact Or.inr ⟨⟨e, rfl⟩, fun hc => hreports hc.reports, rfl⟩

/-! ## Session update -/

/-- The fields of the update are valid, and its status may follow. -/
structure Updatable (w : World) (s : AgentSession) (cmd : SessionUpdateCommand) : Prop where
  reports : Reporting w cmd.source cmd.externalSessionId
  label : validateOptional validateSessionLabel cmd.label = .ok ()
  workspaceLabel : validateOptional validateWorkspaceLabel cmd.workspaceLabel = .ok ()
  status : ¬ BadStatus s cmd

/-- The session after an update. -/
def updated (s : AgentSession) (cmd : SessionUpdateCommand) : AgentSession :=
  { replaced s cmd with
    status := cmd.status.getD s.status
    lastEventAtMs := cmd.occurredAtMs }

/-- What an update that is refused leaves of the session : the labels are assigned before the
checks that follow. -/
def leftover (s : AgentSession) (cmd : SessionUpdateCommand) : AgentSession :=
  if validateOptional validateSessionLabel cmd.label = .ok () then
    if validateOptional validateWorkspaceLabel cmd.workspaceLabel = .ok () then replaced s cmd
    else relabelled s cmd
  else s

theorem wp_updateStatus_outcome {id : String} {t : AgentSession} {Q : AgentSession → World → Prop}
    (ht : t.status = s.status) (hid : w.registry.sessions.lookup id = some t)
    (hE : BadStatus s cmd → ∀ e, E (.err e) w)
    (hQ : ¬ BadStatus s cmd → Q { t with status := cmd.status.getD s.status }
      (w.withSession id { t with status := cmd.status.getD s.status })) :
    wp (updateStatus id t cmd.status) w Q E := by
  cases hstatus : cmd.status with
  | none =>
    have hsame : ({ t with status := cmd.status.getD s.status } : AgentSession) = t := by
      rw [hstatus, Option.getD_none, ← ht]
    rw [hsame, withSession_self hid] at hQ
    refine hQ ?_
    rintro ⟨status, h, -⟩
    rw [hstatus] at h
    cases h
  | some status =>
    rw [hstatus] at hQ
    refine wp_check_bind (fun hbad => hE ⟨status, hstatus, ?_⟩) fun hok => ?_
    · simpa [validateTransition, ht] using hbad
    · rw [wp_assign_iff]
      refine hQ ?_
      rintro ⟨status', h, hinvalid⟩
      obtain rfl := Option.some.inj (hstatus.symm.trans h)
      rw [← ht, isValidTransition_of_validate hok] at hinvalid
      cases hinvalid

/-- An update of session `s`, and the world it leaves if it is refused. -/
theorem wp_sessionUpdate_outcome (hk : Keyed w.registry)
    (hres : w.registry.resolveExternal cmd.source cmd.externalSessionId = some s)
    (hQ : Updatable w s cmd → ∀ r w', Noted s.id (w.withSession s.id (updated s cmd)) w' →
      Q r w') :
    wp (sessionUpdate env cmd) w Q (fun f w' =>
      (Reporting w cmd.source cmd.externalSessionId →
        RefusedAt (Updatable w s cmd) (w.withSession s.id (leftover s cmd)) f w') ∧
      (¬ Reporting w cmd.source cmd.externalSessionId → RefusedAt (Updatable w s cmd) w f w')) := by
  have hs := lookup_of_resolve hk hres
  by_cases hreports : Reporting w cmd.source cmd.externalSessionId
  · refine wp_mono (E := RefusedAt (Updatable w s cmd) (w.withSession s.id (leftover s cmd)))
      ?_ (fun _ _ h => h) fun f w' hf => ⟨fun _ => hf, fun hno => absurd hreports hno⟩
    refine (wp_admitted_iff hk ((admitted_iff_reporting hres).2 hreports)).2 ?_
    rw [wp_bind]
    refine wp_updateLabel_iff hs (fun hl e => Or.inr ⟨⟨e, rfl⟩, fun hc => hl hc.label, ?_⟩)
      fun hl => ?_
    · rw [leftover, if_neg hl, withSession_self hs]
    rw [wp_bind]
    refine wp_updateWorkspaceLabel_iff
      (fun hw e => Or.inr ⟨⟨e, rfl⟩, fun hc => hw hc.workspaceLabel, ?_⟩) fun hw => ?_
    · rw [leftover, if_pos hl, if_neg hw]
    rw [wp_bind]
    have hreplaced := lookup_withSession (replaced s cmd) hs
    refine wp_updateStatus_outcome (s := s) rfl hreplaced
      (fun hbad e => Or.inr ⟨⟨e, rfl⟩, fun hc => hc.status hbad, ?_⟩) fun hgood => ?_
    · rw [leftover, if_pos hl, if_pos hw]
    rw [wp_bind, wp_assign_iff, withSession_withSession, withSession_withSession, wp_bind]
    refine wp_mono (wp_storeSession_outcome fun store _ => ?_) (fun _ _ h => h)
      fun f w' hf => Or.inl hf
    refine wp_mono (wp_announce_outcome (lookup_withSession (updated s cmd) hs)
      fun e w' _ hw' => ?_) (fun _ _ h => h) fun _ _ hf => Or.inl hf
    exact hQ ⟨hreports, hl, hw, hgood⟩ _ _
      ⟨hw'.sessions, hw'.externalIndex, hw'.integrations, hw'.later, hw'.grows⟩
  · refine wp_mono (E := RefusedAt (Updatable w s cmd) w) ?_ (fun _ _ h => h)
      fun f w' hf => ⟨fun hr => absurd hr hreports, fun _ => hf⟩
    refine wp_not_admitted hk (not_admitted_of_not_reporting hreports) fun e => ?_
    exact Or.inr ⟨⟨e, rfl⟩, fun hc => hreports hc.reports, rfl⟩

/-! ## Attention, process roots and integrations -/

/-- The identifier is valid, and the integration of the source supports the attention. -/
structure Supports (w : World) (source : AgentSource) (externalSessionId : String)
    (kind : AttentionKind) : Prop where
  valid : validateExternalSessionId externalSessionId = .ok ()
  attention : ∃ c, w.inner.integrations.find? (·.source = source) = some c ∧
    supportsAttention c kind = true

/-- The session after an attention. -/
def alerted (s : AgentSession) (cmd : AttentionCommand) : AgentSession :=
  { s with attention := cmd.attention, lastEventAtMs := cmd.occurredAtMs }

/-- The identifier is valid, and the integration of the source attributes processes. -/
structure Attributes (w : World) (source : AgentSource) (externalSessionId : String) : Prop where
  valid : validateExternalSessionId externalSessionId = .ok ()
  attribution : ∃ c, w.inner.integrations.find? (·.source = source) = some c ∧
    c.processAttribution ≠ .unknown

/-- The session after its process root was registered. -/
def rooted (s : AgentSession) (cmd : ProcessRootCommand) : AgentSession :=
  { s with processRoot := some cmd.processRoot, lastEventAtMs := cmd.occurredAtMs }

theorem wp_capabilitiesFor_outcome {Q : AdapterCapabilities → World → Prop}
    (hE : w.inner.integrations.find? (·.source = source) = none → ∀ e, E (.err e) w)
    (hQ : ∀ c, w.inner.integrations.find? (·.source = source) = some c → Q c w) :
    wp (capabilitiesFor source) w Q E := by
  simp only [capabilitiesFor, wp_bind, wp_get, wp_okOr]
  exact ⟨hQ, fun hnone => hE hnone _⟩

/-- The session a command names is known. -/
theorem wp_resolved_iff {β : Type} {f : String → AgentSession → CoreM β} {Q : β → World → Prop}
    (hk : Keyed w.registry) (hres : w.registry.resolveExternal source externalSessionId = some s) :
    wp (do
      let id ← resolveSessionId source externalSessionId
      let s ← resolvedSession id
      f id s) w Q E ↔ wp (f s.id s) w Q E := by
  have hget : w.inner.registry.get s.id = some s := lookup_of_resolve hk hres
  have hres' : w.inner.registry.resolveExternal source externalSessionId = some s := hres
  simp only [resolveSessionId, resolvedSession, wp_bind, wp_get, wp_okOr, wp_pure, wp_expect, hres']
  simp [hget]

theorem wp_attention_outcome {cmd : AttentionCommand} (hk : Keyed w.registry)
    (hres : w.registry.resolveExternal cmd.source cmd.externalSessionId = some s)
    (hsummary : validateEventSummary cmd.summary = .ok ())
    (hQ : Supports w cmd.source cmd.externalSessionId cmd.attention → ∀ r w',
      Noted s.id (w.withSession s.id (alerted s cmd)) w' → Q r w') :
    wp (attention env cmd) w Q
      (RefusedAt (Supports w cmd.source cmd.externalSessionId cmd.attention) w) := by
  have hs := lookup_of_resolve hk hres
  refine wp_check_bind (fun hbad e => Or.inr ⟨⟨e, rfl⟩, fun hc => hbad hc.valid, rfl⟩)
    fun hvalid => wp_check_bind (fun hbad => absurd hsummary hbad) fun _ => ?_
  rw [wp_bind]
  refine wp_capabilitiesFor_outcome (fun hnone e => Or.inr ⟨⟨e, rfl⟩, fun hc => ?_, rfl⟩)
    fun c hc => ?_
  · obtain ⟨c, hc, -⟩ := hc.attention
    rw [hnone] at hc
    cases hc
  rw [wp_bind, ensureAttentionCapability, wp_ensure]
  refine ⟨fun hsupports => ?_, fun hno => Or.inr ⟨⟨_, rfl⟩, fun hsupports => ?_, rfl⟩⟩
  · refine (wp_resolved_iff hk hres).2 ?_
    rw [wp_bind, wp_assign_iff, wp_bind]
    refine wp_mono (wp_storeSession_outcome fun store _ => ?_) (fun _ _ h => h)
      fun f w' hf => Or.inl hf
    rw [wp_bind, wp_modify]
    refine wp_mono (wp_announce_outcome (lookup_withSession (alerted s cmd) hs)
      fun e w' _ hw' => ?_) (fun _ _ h => h) fun _ _ hf => Or.inl hf
    exact hQ ⟨hvalid, c, hc, hsupports⟩ _ _
      ⟨hw'.sessions, hw'.externalIndex, hw'.integrations, hw'.later, hw'.grows⟩
  · obtain ⟨c', hc', hsupported⟩ := hsupports.attention
    rw [hc] at hc'
    cases hc'
    rw [hsupported] at hno
    cases hno

theorem wp_registerProcessRoot_outcome {cmd : ProcessRootCommand} (hk : Keyed w.registry)
    (hres : w.registry.resolveExternal cmd.source cmd.externalSessionId = some s)
    (hQ : Attributes w cmd.source cmd.externalSessionId → ∀ r w',
      Noted s.id (w.withSession s.id (rooted s cmd)) w' → Q r w') :
    wp (registerProcessRoot env cmd) w Q
      (RefusedAt (Attributes w cmd.source cmd.externalSessionId) w) := by
  have hs := lookup_of_resolve hk hres
  refine wp_check_bind (fun hbad e => Or.inr ⟨⟨e, rfl⟩, fun hc => hbad hc.valid, rfl⟩)
    fun hvalid => ?_
  rw [wp_bind]
  refine wp_capabilitiesFor_outcome (fun hnone e => Or.inr ⟨⟨e, rfl⟩, fun hc => ?_, rfl⟩)
    fun c hc => ?_
  · obtain ⟨c, hc, -⟩ := hc.attribution
    rw [hnone] at hc
    cases hc
  rw [wp_bind, wp_ensure]
  refine ⟨fun hknown => ?_, fun hno => Or.inr ⟨⟨_, rfl⟩, fun hattributes => ?_, rfl⟩⟩
  · refine (wp_resolved_iff hk hres).2 ?_
    rw [wp_bind, wp_assign_iff, wp_bind]
    refine wp_mono (wp_storeSession_outcome fun store _ => ?_) (fun _ _ h => h)
      fun f w' hf => Or.inl hf
    refine wp_mono (wp_announce_outcome (lookup_withSession (rooted s cmd) hs)
      fun e w' _ hw' => ?_) (fun _ _ h => h) fun _ _ hf => Or.inl hf
    exact hQ ⟨hvalid, c, hc, of_decide_eq_true hknown⟩ _ _
      ⟨hw'.sessions, hw'.externalIndex, hw'.integrations, hw'.later, hw'.grows⟩
  · obtain ⟨c', hc', hattribution⟩ := hattributes.attribution
    rw [hc] at hc'
    cases hc'
    exact absurd hattribution (of_decide_eq_false hno)

/-- A session was written, and nothing else. -/
structure Published (id : String) (t : AgentSession) (w w' : World) : Prop where
  registry : SameRegistry (w.withSession id t).registry w'.registry
  integrations : w'.inner.integrations = w.inner.integrations
  alerts : w'.inner.alerts = w.inner.alerts
  row : Repository.upsertSessionSql t w.db = .ok ((), w'.db)

theorem wp_publish_outcome {id : String} {t : AgentSession} {Q : Unit → World → Prop}
    (hQ : ∀ w', Published id t w w' → Q () w') :
    wp (publish env id t) w Q (fun f _ => StoreFails f) := by
  unfold publish
  rw [wp_bind, wp_assign_iff, wp_bind]
  refine wp_storeSession_outcome fun store hdb => hQ _ ⟨?_, integrations_flush _ _,
    World.alerts_flush _ _, ?_⟩
  · rw [registry_flush]
    exact SameRegistry.refl _
  · show Repository.upsertSessionSql _ _ = .ok ((), (World.flush _ env).store.db)
    rw [store_flush]
    exact hdb

/-- Forgetting the root of a stored session. -/
theorem wp_clearProcessRoot_outcome {id : String} {Q : Unit → World → Prop}
    (hs : w.registry.sessions.lookup id = some s)
    (hroot : s.processRoot.isSome = true)
    (hQ : validateSessionId id = .ok () → ∀ w', Published id s.withoutRoot w w' → Q () w') :
    wp (clearProcessRoot env id) w Q (RefusedAt (validateSessionId id = .ok ()) w) := by
  refine wp_check_bind (fun hbad e => Or.inr ⟨⟨e, rfl⟩, hbad, rfl⟩) fun hok => ?_
  have hget : w.inner.registry.get id = some s := hs
  simp only [storedSession, wp_bind, wp_get, hget, wp_okOr, wp_onlyIf]
  refine ⟨fun t ht => ?_, fun hno => by cases hno⟩
  cases ht
  refine ⟨fun _ => ?_, fun hno => absurd hroot (by simp [hno])⟩
  exact wp_mono (wp_publish_outcome (hQ hok)) (fun _ _ h => h) fun f w' hf => Or.inl hf

theorem wp_setVerifiedTerminal_outcome {id : String} {terminal : VerifiedTerminalContext}
    {Q : Unit → World → Prop} (hs : w.registry.sessions.lookup id = some s)
    (hQ : validateSessionId id = .ok () → ∀ w',
      Published id { s with verifiedTerminal := some terminal } w w' → Q () w') :
    wp (setVerifiedTerminal env id terminal) w Q (RefusedAt (validateSessionId id = .ok ()) w) := by
  refine wp_check_bind (fun hbad e => Or.inr ⟨⟨e, rfl⟩, hbad, rfl⟩) fun hok => ?_
  have hget : w.inner.registry.get id = some s := hs
  simp only [storedSession, wp_bind, wp_get, hget, wp_okOr]
  refine ⟨fun t ht => ?_, fun hno => by cases hno⟩
  cases ht
  exact wp_mono (wp_publish_outcome (hQ hok)) (fun _ _ h => h) fun f w' hf => Or.inl hf

theorem wp_integrationHealth_outcome {cmd : IntegrationHealthCommand}
    (hQ : ∀ w', SameRegistry w.registry w'.registry → w'.inner.alerts = w.inner.alerts →
      w'.db.sessions = w.db.sessions → w'.db.events = w.db.events →
      w'.inner.integrations = upsertCapabilities cmd.capabilities w.inner.integrations →
      Q IngestResult.empty w') : wp (integrationHealth cmd) w Q (fun f _ => StoreFails f) := by
  unfold integrationHealth Repository.upsertIntegration Repository.execute
  rw [wp_bind, onStore, wp_zoom]
  refine Repository.wp_statement (fun u db hdb => ?_) fun _ hd => execute_fails hd
  obtain ⟨-, rfl⟩ := Prod.mk.inj (Except.ok.inj hdb)
  exact hQ _ (SameRegistry.refl _) rfl rfl rfl rfl

end Outcomes

end LlmNotch
