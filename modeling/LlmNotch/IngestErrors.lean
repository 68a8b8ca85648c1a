import LlmNotch.RegistryIndex

/-!
# Rejected commands

What an ingest that returns an error of the core leaves behind. Most handlers make all their
checks first, and once they have changed something only the repository can fail. Two do not :
a session update assigns the label and the workspace label before it checks the rest, and a
session end assigns and persists the ended session before it checks the summary.

`rejected_untouched_iff` : in every reachable state, a command that is rejected leaves
everything as it was exactly if the assignments made before the failing check write what is
there already (`FailsClean`).
-/

namespace LlmNotch

open AppCore

/-- Nothing but the idempotency keys differs. -/
structure Untouched (w w' : World) : Prop where
  sessions : w'.registry.sessions = w.registry.sessions
  events : w'.registry.events = w.registry.events
  rows : w'.db.sessions = w.db.sessions
  eventRows : w'.db.events = w.db.events
  alerts : w'.inner.alerts = w.inner.alerts
  pending : w'.inner.coalescer = w.inner.coalescer
  frames : w'.frames = w.frames

/-! ## When a rejected command leaves no trace -/

/-- The command names session `s`, and its integration reports events. -/
structure Admitted (w : World) (source : AgentSource) (externalSessionId : String)
    (s : AgentSession) : Prop where
  valid : validateExternalSessionId externalSessionId = .ok ()
  events : ∃ c, w.inner.integrations.find? (·.source = source) = some c ∧ c.events = true
  resolved : w.registry.resolveExternal source externalSessionId = some s

/-- The update gives no label, or the one the session has. -/
def KeepsLabel (s : AgentSession) (cmd : SessionUpdateCommand) : Prop :=
  ∀ label, cmd.label = some label → s.label = label

def KeepsWorkspaceLabel (s : AgentSession) (cmd : SessionUpdateCommand) : Prop :=
  ∀ workspace, cmd.workspaceLabel = some workspace → s.workspaceLabel = some workspace

/-- The status of the update may not follow the one of the session. -/
def BadStatus (s : AgentSession) (cmd : SessionUpdateCommand) : Prop :=
  ∃ status, cmd.status = some status ∧ isValidTransition s.status status = false

/-- The session ended already, as the command says. -/
structure AlreadyEnded (s : AgentSession) (cmd : SessionEndCommand) : Prop where
  status : s.status = cmd.status
  endedAtMs : s.endedAtMs = some cmd.occurredAtMs
  lastEventAtMs : s.lastEventAtMs = cmd.occurredAtMs
  attention : s.attention = .none
  latestMetric : s.latestMetric = none

/-- The row of the session has its values. -/
def Persisted (w : World) (s : AgentSession) : Prop :=
  ∃ row ∈ w.db.sessions, row.id = s.id ∧ Repository.mergeSession row s = row

/-- If an update or an end is rejected after it has assigned something, the assignment makes
no difference. -/
def FailsClean (w : World) : IngestCommand → Prop
  | .sessionUpdate cmd => ∀ s, Admitted w cmd.source cmd.externalSessionId s →
      validateOptional validateSessionLabel cmd.label = .ok () →
        if validateOptional validateWorkspaceLabel cmd.workspaceLabel = .ok () then
          BadStatus s cmd → KeepsLabel s cmd ∧ KeepsWorkspaceLabel s cmd
        else KeepsLabel s cmd
  | .sessionEnd cmd => ∀ s, Admitted w cmd.source cmd.externalSessionId s →
      (cmd.status = .completed ∨ cmd.status = .failed) →
        isValidTransition s.status cmd.status = true →
          validateEventSummary (cmd.summary.getD "Session ended") ≠ .ok () →
            AlreadyEnded s cmd ∧ Persisted w s
  | _ => True

/-! ## Failures -/

/-- The call did not return an error of the core. -/
def NotCore (f : Fault) : Prop :=
  ∀ e, f ≠ .err e

/-- If the call returned an error of the core, nothing differs. -/
def Clean (w : World) (f : Fault) (w' : World) : Prop :=
  ∀ e, f = .err e → Untouched w w'

theorem notCore_other (detail : String) : NotCore (.other detail) := by
  intro e h
  cases h

theorem notCore_panic (message : String) : NotCore (.panic message) := by
  intro e h
  cases h

theorem NotCore.clean {f : Fault} (h : NotCore f) (w w' : World) : Clean w f w' :=
  fun e he => absurd he (h e)

theorem Untouched.refl (w : World) : Untouched w w :=
  ⟨rfl, rfl, rfl, rfl, rfl, rfl, rfl⟩

theorem Untouched.clean {w w' : World} (h : Untouched w w') (f : Fault) : Clean w f w' :=
  fun _ _ => h

section Rules

variable {w : World} {α : Type}

/-- Programs over the store report no error of the core. -/
def StoreReports (m : StoreM α) : Prop :=
  ∀ s, wp m s (fun _ _ => True) (fun f _ => NotCore f)

theorem storeReports_statement (sql : Database → Except String (α × Database)) :
    StoreReports (Repository.statement sql) :=
  fun _ => Repository.wp_statement (fun _ _ _ => trivial) (fun detail _ => notCore_other detail)

theorem StoreShrinks.reports {m : StoreM α} (h : StoreShrinks m) : StoreReports m := by
  intro s
  refine wp_mono (h s) (fun _ _ _ => trivial) ?_
  rintro f t ⟨-, detail, rfl, -⟩
  exact notCore_other detail

theorem wp_onStore_reports {m : StoreM α} {Q : α → World → Prop} (hm : StoreReports m)
    (hQ : ∀ a store, Q a (w.setStore store)) :
    wp (onStore m) w Q (fun f _ => NotCore f) := by
  unfold onStore
  rw [wp_zoom]
  exact wp_mono (hm w.store) (fun a store _ => hQ a store) (fun _ _ h => h)

variable {Q : Unit → World → Prop} {id : String} {s : AgentSession} {source : AgentSource}
  {E : Fault → World → Prop}

/-- An event of a stored session is appended, unless the repository fails. -/
theorem wp_appendEvent_reports {env : Env} {kind : SessionEventKind} {level : EventLevel}
    {summary : String} {toolName : Option String} {occurredAtMs : ℤ}
    {Q : SessionEvent → World → Prop} (hs : (w.registry.sessions.lookup id).isSome = true)
    (hQ : ∀ e w', Q e w') :
    wp (appendEvent env id kind level summary toolName occurredAtMs) w Q
      (fun f _ => NotCore f) := by
  unfold appendEvent
  rw [wp_bind, wp_get, wp_bind, onRegistry, wp_zoom]
  refine SessionRegistry.wp_appendEvent hs rfl ?_
  rw [wp_bind]
  refine wp_onStore_reports (fun s => ?_) fun _ store => ?_
  · rw [Repository.appendEvent, wp_bind]
    refine Repository.wp_statement (fun _ db _ => ?_) fun detail _ => notCore_other detail
    exact (shrinks_trimSessionEvents _).reports _
  · rw [wp_bind]
    exact hQ _ _

theorem withSession_self (h : w.registry.sessions.lookup id = some s) : w.withSession id s = w := by
  unfold World.withSession
  rw [Dict.adjust_self h]
  rfl

/-- An assignment leaves no trace if it writes what is there. -/
theorem untouched_withSession {t : AgentSession} (h : w.registry.sessions.lookup id = some s) :
    Untouched w (w.withSession id t) ↔ t = s := by
  constructor
  · intro hu
    have ht := lookup_withSession t h
    rw [hu.sessions, h] at ht
    exact (Option.some.inj ht).symm
  · rintro rfl
    rw [withSession_self h]
    exact Untouched.refl w

theorem wp_store_reports (hQ : ∀ store, Q () (w.setStore store)) :
    wp (onStore (Repository.upsertSession s)) w Q (fun f _ => NotCore f) :=
  wp_onStore_reports (storeReports_statement _) fun _ store => hQ store

/-- The session a command refers to is stored under its identifier. -/
theorem wp_resolveSessionId {externalSessionId : String} {Q : String → World → Prop}
    (hk : Keyed w.registry) (hE : ∀ e, E (.err e) w)
    (hQ : ∀ s, w.registry.resolveExternal source externalSessionId = some s →
      w.registry.sessions.lookup s.id = some s → Q s.id w) :
    wp (resolveSessionId source externalSessionId) w Q E := by
  simp only [resolveSessionId, wp_bind, wp_get, wp_okOr, wp_pure]
  refine ⟨fun s hs => hQ s hs ?_, fun _ => hE _⟩
  obtain ⟨id, -, hid⟩ := Option.bind_eq_some_iff.1 hs
  rw [hk.id hid]
  exact hid

theorem wp_resolvedSession_iff {Q : AgentSession → World → Prop}
    (hs : w.registry.sessions.lookup id = some s) : wp (resolvedSession id) w Q E ↔ Q s w := by
  have hget : w.inner.registry.get id = some s := hs
  simp [resolvedSession, hget]

theorem wp_requireEvents_iff (hE : ∀ e, E (.err e) w)
    (hQ : (∃ c, w.inner.integrations.find? (·.source = source) = some c ∧ c.events = true) →
      Q () w) : wp (requireEvents source) w Q E := by
  simp only [requireEvents, capabilitiesFor, wp_bind, wp_get, wp_okOr, wp_ensure]
  exact ⟨fun c hc => ⟨fun hev => hQ ⟨c, hc, hev⟩, fun _ => hE _⟩, fun _ => hE _⟩

end Rules

/-! ## Handlers that check first -/

section Checked

variable {w : World} {env : Env}

variable {s : AgentSession} {kind : SessionEventKind} {source : AgentSource}
  {externalSessionId : String} {E : Fault → World → Prop}

/-- The end of most handlers reports no error of the core. -/
theorem wp_publish_reports {id : String} {t : AgentSession} {level : EventLevel} {summary : String}
    {occurredAtMs : ℤ} {result : SessionEvent → IngestResult}
    (hs : w.registry.sessions.lookup id = some s) :
    wp (do
      let event ← appendEvent env id kind level summary none occurredAtMs
      queuePayload (.sessionUpsert t)
      pure (result event)) w (fun _ _ => True) (fun f _ => NotCore f) := by
  rw [wp_bind]
  refine wp_appendEvent_reports (Option.isSome_iff_exists.2 ⟨s, hs⟩) fun e w' => ?_
  exact trivial

theorem clean_of_reports {α : Type} {m : CoreM α} {w₁ : World} {Q : α → World → Prop}
    (h : wp m w₁ Q (fun f _ => NotCore f)) : wp m w₁ Q (Clean w) :=
  wp_mono h (fun _ _ h => h) (fun _ w' hf => hf.clean w w')

/-- The end of the handlers that record an event only. -/
theorem clean_record {occurredAtMs : ℤ} {level : EventLevel} {summary : String}
    {toolName : Option String} (hk : Keyed w.registry) :
    wp (recordEvent env source externalSessionId kind level summary toolName occurredAtMs) w
      (fun _ _ => True) (Clean w) := by
  have hclean : ∀ e, Clean w (.err e) w := fun e => (Untouched.refl w).clean _
  unfold recordEvent
  rw [wp_bind]
  refine wp_requireEvents_iff hclean fun _ => ?_
  rw [wp_bind]
  refine wp_resolveSessionId hk hclean fun s _ hs => clean_of_reports ?_
  have hget : w.inner.registry.get s.id = some s := hs
  simp only [touchSession, wp_bind, wp_get, hget, wp_assign_iff]
  refine wp_store_reports fun store => ?_
  refine wp_appendEvent_reports ?_ fun _ _ => trivial
  exact Option.isSome_iff_exists.2 ⟨_, lookup_withSession _ hs⟩

theorem clean_lifecycleEvent {cmd : LifecycleEventCommand} (hk : Keyed w.registry) :
    wp (lifecycleEvent env cmd) w (fun _ _ => True) (Clean w) := by
  have hclean : ∀ e, Clean w (.err e) w := fun e => (Untouched.refl w).clean _
  refine wp_check_bind (fun _ => hclean) fun _ => wp_check_bind (fun _ => hclean) fun _ => ?_
  exact clean_record hk

theorem clean_toolEvent {cmd : ToolEventCommand} (hk : Keyed w.registry) :
    wp (toolEvent env cmd) w (fun _ _ => True) (Clean w) := by
  have hclean : ∀ e, Clean w (.err e) w := fun e => (Untouched.refl w).clean _
  refine wp_check_bind (fun _ => hclean) fun _ => wp_check_bind (fun _ => hclean) fun _ => ?_
  exact wp_check_bind (fun _ => hclean) fun _ => clean_record hk

theorem Admitted.lookup (h : Admitted w source externalSessionId s) (hk : Keyed w.registry) :
    w.registry.sessions.lookup s.id = some s := by
  obtain ⟨id, -, hid⟩ := Option.bind_eq_some_iff.1 h.resolved
  rw [hk.id hid]
  exact hid

/-- The first checks of an update and an end pass. -/
theorem wp_admitted_iff {β : Type} {f : String → AgentSession → CoreM β} {Q : β → World → Prop}
    (hk : Keyed w.registry) (h : Admitted w source externalSessionId s) :
    wp (do
      check (validateExternalSessionId externalSessionId)
      requireEvents source
      let id ← resolveSessionId source externalSessionId
      let s ← resolvedSession id
      f id s) w Q E ↔ wp (f s.id s) w Q E := by
  obtain ⟨c, hc, hevents⟩ := h.events
  have hres : w.inner.registry.resolveExternal source externalSessionId = some s := h.resolved
  have hget : w.inner.registry.get s.id = some s := h.lookup hk
  simp only [requireEvents, capabilitiesFor, resolveSessionId, resolvedSession, wp_bind, wp_check,
    wp_get, wp_okOr, wp_ensure, wp_pure, wp_expect, h.valid, hc, hres]
  simp [hevents, hget]

/-- The first checks of an update and an end do not pass. -/
theorem wp_not_admitted {β : Type} {f : String → AgentSession → CoreM β} {Q : β → World → Prop}
    (hk : Keyed w.registry) (h : ∀ s, ¬ Admitted w source externalSessionId s)
    (hE : ∀ e, E (.err e) w) :
    wp (do
      check (validateExternalSessionId externalSessionId)
      requireEvents source
      let id ← resolveSessionId source externalSessionId
      let s ← resolvedSession id
      f id s) w Q E := by
  refine wp_check_bind (fun _ => hE) fun hvalid => ?_
  rw [wp_bind]
  refine wp_requireEvents_iff hE fun hevents => ?_
  rw [wp_bind]
  refine wp_resolveSessionId hk hE fun s hres _ => ?_
  exact absurd ⟨hvalid, hevents, hres⟩ (h s)

theorem wp_capabilitiesFor_iff {Q : AdapterCapabilities → World → Prop} (hE : ∀ e, E (.err e) w)
    (hQ : ∀ c, Q c w) : wp (capabilitiesFor source) w Q E := by
  simp only [capabilitiesFor, wp_bind, wp_get, wp_okOr]
  exact ⟨fun c _ => hQ c, fun _ => hE _⟩

theorem clean_attention {cmd : AttentionCommand} (hk : Keyed w.registry) :
    wp (attention env cmd) w (fun _ _ => True) (Clean w) := by
  have hclean : ∀ e, Clean w (.err e) w := fun e => (Untouched.refl w).clean _
  refine wp_check_bind (fun _ => hclean) fun _ => wp_check_bind (fun _ => hclean) fun _ => ?_
  rw [wp_bind]
  refine wp_capabilitiesFor_iff hclean fun c => ?_
  refine wp_ensure_bind hclean fun _ => ?_
  rw [wp_bind]
  refine wp_resolveSessionId hk hclean fun s _ hs => ?_
  rw [wp_bind, wp_resolvedSession_iff hs]
  refine clean_of_reports ?_
  rw [wp_bind, wp_assign_iff, wp_bind]
  refine wp_store_reports fun store => ?_
  rw [wp_bind, wp_modify]
  exact wp_publish_reports (lookup_withSession _ hs)

theorem clean_registerProcessRoot {cmd : ProcessRootCommand} (hk : Keyed w.registry) :
    wp (registerProcessRoot env cmd) w (fun _ _ => True) (Clean w) := by
  have hclean : ∀ e, Clean w (.err e) w := fun e => (Untouched.refl w).clean _
  refine wp_check_bind (fun _ => hclean) fun _ => ?_
  rw [wp_bind]
  refine wp_capabilitiesFor_iff hclean fun c => ?_
  refine wp_ensure_bind hclean fun _ => ?_
  rw [wp_bind]
  refine wp_resolveSessionId hk hclean fun s _ hs => ?_
  rw [wp_bind, wp_resolvedSession_iff hs]
  refine clean_of_reports ?_
  rw [wp_bind, wp_assign_iff, wp_bind]
  refine wp_store_reports fun store => ?_
  exact wp_publish_reports (lookup_withSession _ hs)

theorem clean_integrationHealth {cmd : IntegrationHealthCommand} :
    wp (integrationHealth cmd) w (fun _ _ => True) (Clean w) := by
  refine clean_of_reports ?_
  unfold integrationHealth
  rw [wp_bind]
  exact wp_onStore_reports (shrinks_upsertIntegration _).reports fun _ _ => trivial

theorem clean_acknowledgeAttention {cmd : AcknowledgeAttentionCommand} :
    wp (acknowledgeAttention cmd) w (fun _ _ => True) (Clean w) := by
  have hclean : ∀ e, Clean w (.err e) w := fun e => (Untouched.refl w).clean _
  refine wp_check_bind (fun _ => hclean) fun _ => ?_
  rw [wp_bind]
  simp only [storedSession, wp_bind (m := get), wp_get, wp_okOr]
  refine ⟨fun s hs => clean_of_reports ?_, fun _ => hclean _⟩
  rw [wp_bind, wp_assign_iff, wp_bind]
  exact wp_store_reports fun store => trivial

end Checked

/-! ## Session start -/

section Start

variable {w : World} {env : Env} {cfg : CoreConfig}

theorem Untouched.keyed {w' : World} (h : Untouched w w') (hk : Keyed w.registry) :
    Keyed w'.registry :=
  hk.of_eq h.sessions

variable {cmd : SessionStartCommand}

/-- Looking for an earlier start with the same key changes nothing but keys. -/
theorem wp_replayedStart_untouched {Q : Option AgentSession → World → Prop}
    (hQ : ∀ r w', Untouched w w' → Q r w') : wp (replayedStart cmd) w Q (Clean w) := by
  unfold replayedStart
  cases cmd.idempotencyKey with
  | none => exact hQ none w (Untouched.refl w)
  | some key =>
    have hknown : wp (knownKey key cmd.occurredAtMs) w
        (fun _ w' => ∃ store, w' = w.setStore store ∧ store.db.sessions = w.db.sessions ∧
          store.db.events = w.db.events) (Clean w) := by
      unfold knownKey
      rw [wp_bind, wp_get]
      split
      · exact ⟨w.store, rfl, rfl, rfl⟩
      · refine clean_of_reports ?_
        unfold onStore
        rw [wp_zoom]
        refine Repository.wp_statement (fun known db hdb => ?_) fun detail _ => notCore_other detail
        refine ⟨_, rfl, ?_⟩
        split at hdb
        · obtain ⟨-, rfl⟩ := Prod.mk.inj (Except.ok.inj hdb)
          exact ⟨rfl, rfl⟩
        · obtain ⟨-, rfl⟩ := Prod.mk.inj (Except.ok.inj hdb)
          exact ⟨rfl, rfl⟩
    simp only [wp_bind]
    refine wp_mono hknown ?_ (fun _ _ h => h)
    rintro known _ ⟨store, rfl, hrows, hevents⟩
    rw [wp_get]
    split
    · exact hQ _ _ ⟨rfl, rfl, hrows, hevents, rfl, rfl, rfl⟩
    · simp only [wp_bind, onRegistry, wp_zoom, SessionRegistry.recordIdempotency, wp_modify,
        wp_pure]
      exact hQ _ _ ⟨rfl, rfl, hrows, hevents, rfl, rfl, rfl⟩

/-- The session to evict is stored under its identifier. -/
theorem lookup_candidate {r : SessionRegistry} {rank : String → ℕ} {id : String}
    (hk : Keyed r) (h : r.capacityEvictionCandidate rank = .ok (some id)) :
    (r.sessions.lookup id).isSome = true ∧ maxSessions ≤ r.len := by
  unfold SessionRegistry.capacityEvictionCandidate at h
  split at h
  · cases h
  · rename_i hlen
    refine ⟨?_, not_lt.1 hlen⟩
    split at h
    · rename_i oldest holdest
      obtain rfl := Option.some.inj (Except.ok.inj h)
      unfold SessionRegistry.oldestTerminalSessionId at holdest
      obtain ⟨s, hs, rfl⟩ := Option.map_eq_some_iff.1 holdest
      obtain ⟨k, hlookup⟩ := Dict.mem_valuesBy.1 (List.mem_filter.1 (List.argmin_mem hs)).1
      rw [hk.id hlookup]
      exact Option.isSome_iff_exists.2 ⟨s, hlookup⟩
    · cases h

/-- An eviction makes room, or changes nothing. -/
theorem wp_evict_room {w₀ : World} {Q : Unit → World → Prop} (hk : Keyed w.registry)
    (hw : Untouched w₀ w) (hQ : ∀ w', w'.registry.len < maxSessions → Q () w') :
    wp (evict env) w Q (Clean w₀) := by
  unfold evict
  simp only [wp_bind, wp_get, wp_check]
  refine ⟨fun candidate hc => ?_, fun e _ => hw.clean _⟩
  cases candidate with
  | none =>
    refine hQ w ?_
    unfold SessionRegistry.capacityEvictionCandidate at hc
    split at hc
    · assumption
    · split at hc <;> cases hc
  | some evictedId =>
    obtain ⟨hsome, hlen⟩ := lookup_candidate hk hc
    obtain ⟨s, hs⟩ := Option.isSome_iff_exists.1 hsome
    refine clean_of_reports ?_
    unfold dropSession Repository.removeSession Repository.execute
    rw [wp_bind]
    refine wp_onStore_reports (storeReports_statement _) fun _ store => ?_
    simp only [onRegistry, wp_bind, wp_zoom, SessionRegistry.removeSession, wp_get, wp_okOr,
      wp_modify]
    refine ⟨fun _ _ => hQ _ ?_, fun hnone => ?_⟩
    · have hsize := Dict.size_erase_of_lookup hsome
      have hbound := hk.bounded
      show Dict.size (w.registry.sessions.erase evictedId) < maxSessions
      unfold SessionRegistry.len at hlen hbound
      omega
    · have hnone' : w.registry.sessions.lookup evictedId = none := hnone
      rw [hs] at hnone'
      cases hnone'

theorem wp_openSession_reports {s : AgentSession}
    (hext : validateExternalSessionId s.externalSessionId = .ok ())
    (hs : w.registry.sessions.lookup s.id = some s) :
    wp (openSession env cmd s) w (fun _ _ => True) (fun f _ => NotCore f) := by
  unfold openSession
  rw [wp_bind]
  refine wp_store_reports fun store => ?_
  rw [wp_bind]
  refine wp_appendEvent_reports (Option.isSome_iff_exists.2 ⟨s, hs⟩) fun e w' => ?_
  rw [wp_bind, onRegistry, wp_zoom, SessionRegistry.upsertSession, wp_bind, wp_check, wp_modify,
    wp_bind]
  refine ⟨fun _ _ => wp_store_reports fun _ => trivial, fun err herr => ?_⟩
  rw [hext] at herr
  cases herr

theorem clean_createSession {w₀ : World} (hk : Keyed w.registry) (hw : Untouched w₀ w)
    (hext : validateExternalSessionId cmd.externalSessionId = .ok ()) :
    wp (createSession cfg env cmd) w (fun _ _ => True) (Clean w₀) := by
  unfold createSession
  rw [wp_bind]
  refine wp_evict_room hk hw fun w' hlen => clean_of_reports ?_
  rw [wp_bind, onRegistry, wp_zoom, SessionRegistry.insertNewSession]
  rw [wp_bind, wp_check, hext]
  refine ⟨fun _ _ => ?_, fun err herr => by cases herr⟩
  rw [wp_bind, wp_get]
  split
  · simp only [wp_bind, wp_expect, wp_pure]
    exact ⟨fun _ _ => trivial, fun _ => notCore_panic _⟩
  · simp only [wp_bind, wp_ensure, wp_pure, SessionRegistry.upsertSession, wp_check, wp_modify,
      decide_eq_true_eq, decide_eq_false_iff_not]
    refine ⟨fun _ => ⟨fun _ _ => ?_, fun err herr => ?_⟩, fun hfull => absurd hlen hfull⟩
    · exact wp_openSession_reports hext (AList.lookup_insert _)
    · rw [show (newSession cmd _).externalSessionId = cmd.externalSessionId from rfl, hext] at herr
      cases herr

theorem clean_sessionStart (hk : Keyed w.registry) :
    wp (sessionStart cfg env cmd) w (fun _ _ => True) (Clean w) := by
  have hclean : ∀ e, Clean w (.err e) w := fun e => (Untouched.refl w).clean _
  refine wp_check_bind (fun _ => hclean) fun hext => wp_check_bind (fun _ => hclean) fun _ => ?_
  refine wp_check_bind (fun _ => hclean) fun _ => ?_
  rw [wp_bind]
  refine wp_replayedStart_untouched fun replayed w' hw => ?_
  have hclean' : ∀ e, Clean w (.err e) w' := fun e => hw.clean _
  cases replayed with
  | some session => exact trivial
  | none =>
    rw [wp_bind]
    refine wp_requireEvents_iff hclean' fun _ => wp_check_bind (fun _ => hclean') fun _ => ?_
    rw [wp_bind, wp_get]
    split
    · exact trivial
    · exact clean_createSession (hw.keyed hk) hw hext

end Start

/-! ## Session update -/

section Update

variable {w : World} {env : Env}

/-- The session after the label of an update. -/
def relabelled (s : AgentSession) (cmd : SessionUpdateCommand) : AgentSession :=
  { s with label := cmd.label.getD s.label }

/-- The session after both labels of an update. -/
def replaced (s : AgentSession) (cmd : SessionUpdateCommand) : AgentSession :=
  { relabelled s cmd with workspaceLabel := cmd.workspaceLabel.or s.workspaceLabel }

variable {s : AgentSession} {cmd : SessionUpdateCommand} {id : String}
  {Q : AgentSession → World → Prop} {E : Fault → World → Prop}

theorem relabelled_eq_self : relabelled s cmd = s ↔ KeepsLabel s cmd := by
  unfold relabelled KeepsLabel
  cases cmd.label with
  | none => simp
  | some label =>
    refine ⟨fun h l hl => ?_, fun h => ?_⟩
    · rw [← Option.some.inj hl]
      exact (congrArg AgentSession.label h).symm
    · rw [Option.getD_some, ← h label rfl]

theorem replaced_eq_self : replaced s cmd = s ↔ KeepsLabel s cmd ∧ KeepsWorkspaceLabel s cmd := by
  have hworkspace : (replaced s cmd).workspaceLabel = s.workspaceLabel ↔
      KeepsWorkspaceLabel s cmd := by
    unfold replaced KeepsWorkspaceLabel
    cases cmd.workspaceLabel with
    | none => simp
    | some workspace => simp [eq_comm]
  rw [← relabelled_eq_self, ← hworkspace]
  constructor
  · intro h
    have hlabel := congrArg AgentSession.label h
    refine ⟨?_, congrArg AgentSession.workspaceLabel h⟩
    unfold relabelled
    rw [show cmd.label.getD s.label = s.label from hlabel]
  · rintro ⟨hl, hw⟩
    have hworkspace : cmd.workspaceLabel.or s.workspaceLabel = s.workspaceLabel := hw
    unfold replaced
    rw [hl, hworkspace]

theorem wp_updateLabel_iff (hs : w.registry.sessions.lookup id = some s)
    (hE : validateOptional validateSessionLabel cmd.label ≠ .ok () → ∀ e, E (.err e) w)
    (hQ : validateOptional validateSessionLabel cmd.label = .ok () →
      Q (relabelled s cmd) (w.withSession id (relabelled s cmd))) :
    wp (updateLabel id s cmd.label) w Q E := by
  unfold relabelled at hQ
  cases hlabel : cmd.label with
  | none =>
    rw [hlabel, Option.getD_none, withSession_self hs] at hQ
    exact hQ rfl
  | some label =>
    rw [hlabel] at hQ hE
    refine wp_check_bind hE fun hok => ?_
    rw [wp_assign_iff]
    exact hQ hok

theorem wp_updateWorkspaceLabel_iff
    (hE : validateOptional validateWorkspaceLabel cmd.workspaceLabel ≠ .ok () →
      ∀ e, E (.err e) (w.withSession id (relabelled s cmd)))
    (hQ : validateOptional validateWorkspaceLabel cmd.workspaceLabel = .ok () →
      Q (replaced s cmd) (w.withSession id (replaced s cmd))) :
    wp (updateWorkspaceLabel id (relabelled s cmd) cmd.workspaceLabel)
      (w.withSession id (relabelled s cmd)) Q E := by
  unfold replaced at hQ
  cases hlabel : cmd.workspaceLabel with
  | none =>
    rw [hlabel, Option.none_or] at hQ
    exact hQ rfl
  | some workspace =>
    rw [hlabel] at hQ hE
    refine wp_check_bind hE fun hok => ?_
    rw [wp_assign_iff, withSession_withSession]
    exact hQ hok

theorem wp_updateStatus_iff {t : AgentSession} (ht : t.status = s.status)
    (hE : BadStatus s cmd → ∀ e, E (.err e) w)
    (hQ : ¬ BadStatus s cmd → ∀ u w', w' = w ∨ w' = w.withSession id u → Q u w') :
    wp (updateStatus id t cmd.status) w Q E := by
  cases hstatus : cmd.status with
  | none =>
    refine hQ ?_ t w (Or.inl rfl)
    rintro ⟨status, h, -⟩
    rw [hstatus] at h
    cases h
  | some status =>
    refine wp_check_bind (fun hbad => hE ⟨status, hstatus, ?_⟩) fun hok => ?_
    · simpa [validateTransition, ht] using hbad
    · rw [wp_assign_iff]
      refine hQ ?_ _ _ (Or.inr rfl)
      rintro ⟨status', h, hinvalid⟩
      obtain rfl := Option.some.inj (hstatus.symm.trans h)
      rw [← ht, isValidTransition_of_validate hok] at hinvalid
      cases hinvalid

/-- The exits of an update that names session `s`. -/
theorem wp_sessionUpdate_cases {Q : IngestResult → World → Prop} (hk : Keyed w.registry)
    (ha : Admitted w cmd.source cmd.externalSessionId s)
    (hlabel : validateOptional validateSessionLabel cmd.label ≠ .ok () → ∀ e, E (.err e) w)
    (hworkspace : validateOptional validateSessionLabel cmd.label = .ok () →
      validateOptional validateWorkspaceLabel cmd.workspaceLabel ≠ .ok () →
      ∀ e, E (.err e) (w.withSession s.id (relabelled s cmd)))
    (hstatus : validateOptional validateSessionLabel cmd.label = .ok () →
      validateOptional validateWorkspaceLabel cmd.workspaceLabel = .ok () → BadStatus s cmd →
      ∀ e, E (.err e) (w.withSession s.id (replaced s cmd)))
    (hrest : validateOptional validateSessionLabel cmd.label = .ok () →
      validateOptional validateWorkspaceLabel cmd.workspaceLabel = .ok () → ¬ BadStatus s cmd →
      (∀ r w', Q r w') ∧ ∀ f w', NotCore f → E f w') : wp (sessionUpdate env cmd) w Q E := by
  have hs := ha.lookup hk
  refine (wp_admitted_iff hk ha).2 ?_
  rw [wp_bind]
  refine wp_updateLabel_iff hs hlabel fun hl => ?_
  rw [wp_bind]
  refine wp_updateWorkspaceLabel_iff (hworkspace hl) fun hw => ?_
  rw [wp_bind]
  refine wp_updateStatus_iff (s := s) rfl (hstatus hl hw) fun hgood u w' hw' => ?_
  obtain ⟨hQ, hE⟩ := hrest hl hw hgood
  have hstored : ∃ v, w'.registry.sessions.lookup s.id = some v := by
    rcases hw' with rfl | rfl
    · exact ⟨_, lookup_withSession _ hs⟩
    · exact ⟨_, lookup_withSession _ (lookup_withSession _ hs)⟩
  obtain ⟨v, hv⟩ := hstored
  have hreports : wp (do
      let session ← assign s.id { u with lastEventAtMs := cmd.occurredAtMs }
      onStore (Repository.upsertSession session)
      let event ← appendEvent env s.id .status .info "Session updated" none cmd.occurredAtMs
      queuePayload (.sessionUpsert session)
      pure (⟨some s.id, some event.id, false⟩ : IngestResult)) w' (fun _ _ => True)
      (fun f _ => NotCore f) := by
    rw [wp_bind, wp_assign_iff, wp_bind]
    refine wp_store_reports fun store => ?_
    exact wp_publish_reports (lookup_withSession _ hv)
  exact wp_mono hreports (fun r w' _ => hQ r w') hE

theorem clean_sessionUpdate (hk : Keyed w.registry) (h : FailsClean w (.sessionUpdate cmd)) :
    wp (sessionUpdate env cmd) w (fun _ _ => True) (Clean w) := by
  have hclean : ∀ e, Clean w (.err e) w := fun e => (Untouched.refl w).clean _
  by_cases hadmitted : ∃ s, Admitted w cmd.source cmd.externalSessionId s
  · obtain ⟨s, ha⟩ := hadmitted
    have hs := ha.lookup hk
    have hcond := h s ha
    refine wp_sessionUpdate_cases hk ha (fun _ => hclean) (fun hl hw e => ?_)
      (fun hl hw hbad e => ?_) fun _ _ _ => ⟨fun _ _ => trivial, fun f w' hf => hf.clean w w'⟩
    · have hkeeps := hcond hl
      rw [if_neg hw] at hkeeps
      exact ((untouched_withSession hs).2 (relabelled_eq_self.2 hkeeps)).clean _
    · have hkeeps := hcond hl
      rw [if_pos hw] at hkeeps
      exact ((untouched_withSession hs).2 (replaced_eq_self.2 (hkeeps hbad))).clean _
  · exact wp_not_admitted hk (fun s ha => hadmitted ⟨s, ha⟩) hclean

/-- A rejected update that made a difference. -/
theorem failsClean_sessionUpdate (hk : Keyed w.registry)
    (h : wp (sessionUpdate env cmd) w (fun _ _ => True) (Clean w)) :
    FailsClean w (.sessionUpdate cmd) := by
  have htrace : ∀ {s t}, w.registry.sessions.lookup s.id = some s →
      wp (sessionUpdate env cmd) w (fun _ _ => False)
        (fun f w' => ∃ e, f = .err e ∧ w' = w.withSession s.id t) → t = s := by
    intro s t hs hends
    unfold wp at h hends
    cases hexec : sessionUpdate env cmd w with
    | ok r w' =>
      rw [hexec] at hends
      exact hends.elim
    | error f w' =>
      rw [hexec] at h hends
      obtain ⟨e, rfl, rfl⟩ := hends
      exact (untouched_withSession hs).1 (h e rfl)
  intro s ha hl
  have hs := ha.lookup hk
  split
  · rename_i hw
    intro hbad
    refine replaced_eq_self.1 (htrace hs (wp_sessionUpdate_cases hk ha ?_ ?_ ?_ ?_))
    · exact fun hno => absurd hl hno
    · exact fun _ hno => absurd hw hno
    · exact fun _ _ _ e => ⟨e, rfl, rfl⟩
    · exact fun _ _ hgood => absurd hbad hgood
  · rename_i hw
    refine relabelled_eq_self.1 (htrace hs (wp_sessionUpdate_cases hk ha ?_ ?_ ?_ ?_))
    · exact fun hno => absurd hl hno
    · exact fun _ _ e => ⟨e, rfl, rfl⟩
    · exact fun _ hok => absurd hok hw
    · exact fun _ hok => absurd hok hw

end Update

/-! ## Session end -/

section End

variable {w : World} {env : Env}

variable {s : AgentSession} {cmd : SessionEndCommand}

theorem ended_eq_self : ended s cmd = s ↔ AlreadyEnded s cmd := by
  constructor
  · intro h
    exact ⟨(congrArg AgentSession.status h).symm, (congrArg AgentSession.endedAtMs h).symm,
      (congrArg AgentSession.lastEventAtMs h).symm, (congrArg AgentSession.attention h).symm,
      (congrArg AgentSession.latestMetric h).symm⟩
  · rintro ⟨hstatus, hended, hlast, hattention, hmetric⟩
    unfold ended
    rw [← hstatus, ← hended, ← hlast, ← hattention, ← hmetric]

/-- The exits of an end that names session `s`. -/
theorem wp_sessionEnd_cases {Q : IngestResult → World → Prop} {E : Fault → World → Prop}
    (hk : Keyed w.registry) (ha : Admitted w cmd.source cmd.externalSessionId s)
    (hstatus : ¬ (cmd.status = .completed ∨ cmd.status = .failed) ∨
      isValidTransition s.status cmd.status = false → ∀ e, E (.err e) w)
    (hother : ∀ detail w', E (.other detail) w')
    (hsummary : (cmd.status = .completed ∨ cmd.status = .failed) →
      isValidTransition s.status cmd.status = true →
      validateEventSummary (cmd.summary.getD "Session ended") ≠ .ok () →
      ∀ e store, Repository.upsertSessionSql (ended s cmd) w.db = .ok ((), store.db) →
        E (.err e) ((w.withSession s.id (ended s cmd)).setStore store))
    (hrest : validateEventSummary (cmd.summary.getD "Session ended") = .ok () →
      (∀ r w', Q r w') ∧ ∀ f w', NotCore f → E f w') : wp (sessionEnd env cmd) w Q E := by
  have hs := ha.lookup hk
  refine (wp_admitted_iff hk ha).2 ?_
  rw [wp_bind, wp_ensure]
  refine ⟨fun hfinal => ?_, fun hno => hstatus (Or.inl (by simpa using hno)) _⟩
  refine wp_check_bind (fun hbad => hstatus (Or.inr ?_)) fun hvalid => ?_
  · simpa [validateTransition] using hbad
  rw [wp_bind, wp_assign_iff, wp_bind, onStore, wp_zoom]
  refine Repository.wp_statement (fun _ db hdb => ?_) fun detail _ => hother _ _
  refine wp_check_bind (fun hbad e => hsummary (by simpa using hfinal)
    (isValidTransition_of_validate hvalid) hbad e _ hdb) fun hok => ?_
  obtain ⟨hQ, hE⟩ := hrest hok
  exact wp_mono (wp_publish_reports (lookup_withSession (ended s cmd) hs))
    (fun r w' _ => hQ r w') hE

/-- Persisting a session changes nothing exactly if its row has its values. -/
theorem rows_upsert_eq_self {db : Database} {u : Unit} (hd : DistinctRows w.db.sessions)
    (h : Repository.upsertSessionSql s w.db = .ok (u, db)) :
    db.sessions = w.db.sessions ↔ Persisted w s := by
  obtain ⟨rfl, -⟩ := Repository.upsertSessionSql_ok h
  show upsertRow (·.id) Repository.mergeSession s w.db.sessions = w.db.sessions ↔ _
  constructor
  · intro hrows
    cases hid : hasKey AgentSession.id s.id w.db.sessions with
    | true =>
      obtain ⟨row, hrow, hkey⟩ := hasKey_iff.1 hid
      exact ⟨row, hrow, hkey, (upsertRow_eq_self hd.ids hrow hkey).1 hrows⟩
    | false =>
      have hlen := congrArg List.length hrows
      simp [upsertRow, hid] at hlen
  · rintro ⟨row, hrow, hkey, hmerge⟩
    exact (upsertRow_eq_self hd.ids hrow hkey).2 hmerge

/-- A rejected end leaves no trace if it writes what is there, in memory and in the store. -/
theorem untouched_ended {store : Store} (hd : DistinctRows w.db.sessions)
    (hs : w.registry.sessions.lookup s.id = some s)
    (h : Repository.upsertSessionSql (ended s cmd) w.db = .ok ((), store.db)) :
    Untouched w ((w.withSession s.id (ended s cmd)).setStore store) ↔
      AlreadyEnded s cmd ∧ Persisted w s := by
  have hevents : store.db.events = w.db.events := by
    rw [(Repository.upsertSessionSql_ok h).1]
  rw [← ended_eq_self]
  constructor
  · intro hu
    have hsame : ended s cmd = s := by
      refine (untouched_withSession hs).1 ⟨?_, rfl, rfl, rfl, rfl, rfl, rfl⟩
      exact hu.sessions
    rw [hsame] at h
    exact ⟨hsame, (rows_upsert_eq_self hd h).1 hu.rows⟩
  · rintro ⟨hsame, hrow⟩
    rw [hsame] at h ⊢
    rw [withSession_self hs]
    exact ⟨rfl, rfl, (rows_upsert_eq_self hd h).2 hrow, hevents, rfl, rfl, rfl⟩

theorem clean_sessionEnd (hk : Keyed w.registry) (hd : DistinctRows w.db.sessions)
    (h : FailsClean w (.sessionEnd cmd)) :
    wp (sessionEnd env cmd) w (fun _ _ => True) (Clean w) := by
  have hclean : ∀ e, Clean w (.err e) w := fun e => (Untouched.refl w).clean _
  by_cases hadmitted : ∃ s, Admitted w cmd.source cmd.externalSessionId s
  · obtain ⟨s, ha⟩ := hadmitted
    refine wp_sessionEnd_cases hk ha (fun _ => hclean) (fun d w' => (notCore_other d).clean w w')
      (fun hfinal hvalid hsummary e store hdb => ?_)
      fun _ => ⟨fun _ _ => trivial, fun f w' hf => hf.clean w w'⟩
    have hsame := h s ha hfinal hvalid hsummary
    exact ((untouched_ended hd (ha.lookup hk) hdb).2 hsame).clean _
  · exact wp_not_admitted hk (fun s ha => hadmitted ⟨s, ha⟩) hclean

/-- A rejected end that made a difference, while the repository did not fail. -/
theorem failsClean_sessionEnd (hk : Keyed w.registry) (hd : DistinctRows w.db.sessions)
    (hrepo : ∀ detail w', sessionEnd env cmd w ≠ .error (.other detail) w')
    (h : wp (sessionEnd env cmd) w (fun _ _ => True) (Clean w)) :
    FailsClean w (.sessionEnd cmd) := by
  intro s ha hfinal hvalid hsummary
  have hends : wp (sessionEnd env cmd) w (fun _ _ => False) (fun f w' =>
      (∃ detail, f = .other detail) ∨ ∃ e store, f = .err e ∧
        Repository.upsertSessionSql (ended s cmd) w.db = .ok ((), store.db) ∧
        w' = (w.withSession s.id (ended s cmd)).setStore store) := by
    refine wp_sessionEnd_cases hk ha ?_ (fun detail _ => Or.inl ⟨detail, rfl⟩)
      (fun _ _ _ e store hdb => Or.inr ⟨e, store, rfl, hdb, rfl⟩) (fun hok => absurd hok hsummary)
    rintro (hno | hno)
    · exact absurd hfinal hno
    · rw [hvalid] at hno
      cases hno
  cases hexec : sessionEnd env cmd w with
  | ok r w' => exact (wp_ok hends hexec).elim
  | error f w' =>
    rcases wp_error hends hexec with ⟨detail, rfl⟩ | ⟨e, store, rfl, hdb, rfl⟩
    · exact absurd hexec (hrepo detail w')
    · exact (untouched_ended hd (ha.lookup hk) hdb).1 (wp_error h hexec e rfl)

end End

/-! ## Every command -/

section Ingest

variable {w : World} {env : Env} {cfg : CoreConfig}

/-- A flush cannot fail. -/
theorem ingest_error_iff {command : IngestCommand} {f : Fault} {w' : World} :
    ingest cfg env command w = .error f w' ↔ handleIngest cfg env command w = .error f w' := by
  show EStateM.bind (handleIngest cfg env command) _ w = .error f w' ↔ _
  unfold EStateM.bind
  cases handleIngest cfg env command w with
  | ok r w₁ => exact ⟨fun h => (by cases h), fun h => (by cases h)⟩
  | error g w₁ => exact Iff.rfl

theorem clean_iff {α : Type} {m : CoreM α} :
    wp m w (fun _ _ => True) (Clean w) ↔ ∀ e w', m w = .error (.err e) w' → Untouched w w' := by
  unfold wp
  cases hexec : m w with
  | ok a w' => simp
  | error f w' =>
    constructor
    · rintro h e w'' he
      cases he
      exact h e rfl
    · rintro h e rfl
      exact h e w' rfl

theorem rejected_untouched (hk : Keyed w.registry) (hd : DistinctRows w.db.sessions)
    {command : IngestCommand}
    (hrepo : ∀ detail w', ingest cfg env command w ≠ .error (.other detail) w') :
    (∀ e w', ingest cfg env command w = .error (.err e) w' → Untouched w w') ↔
      FailsClean w command := by
  simp only [ne_eq, ingest_error_iff] at hrepo ⊢
  rw [← clean_iff]
  cases command with
  | sessionStart cmd => exact iff_of_true (clean_sessionStart hk) trivial
  | sessionUpdate cmd => exact ⟨failsClean_sessionUpdate hk, clean_sessionUpdate hk⟩
  | sessionEnd cmd => exact ⟨failsClean_sessionEnd hk hd hrepo, clean_sessionEnd hk hd⟩
  | lifecycleEvent cmd => exact iff_of_true (clean_lifecycleEvent hk) trivial
  | toolEvent cmd => exact iff_of_true (clean_toolEvent hk) trivial
  | attention cmd => exact iff_of_true (clean_attention hk) trivial
  | registerProcessRoot cmd => exact iff_of_true (clean_registerProcessRoot hk) trivial
  | integrationHealth cmd => exact iff_of_true clean_integrationHealth trivial
  | acknowledgeAttention cmd => exact iff_of_true clean_acknowledgeAttention trivial

end Ingest

/-! ## Runs -/

/-- In every reachable state the rows are distinct. -/
theorem distinctRows_run {cfg : CoreConfig} {env : Env} {settings : PublicSettings}
    {db : Database} {s₀ s : CoreState} {acts : List CoreAct} (hdb : DistinctRows db.sessions)
    (hstart : startCore cfg env settings db = some s₀)
    (hrun : run (coreStep cfg) s₀ acts = some s) : DistinctRows s.world.db.sessions := by
  have h₀ : DistinctRows s₀.world.db.sessions := by
    rw [(startCore_spec hstart).2]
    exact hdb
  refine Guarded.invariant (I := fun s => DistinctRows s.world.db.sessions)
    (fun s a t _ h hstep => ?_) h₀ (Guarded.trivial _ _ acts) hrun
  rcases step_cases False False False.elim False.elim hstep with he | ⟨settings, -, hdb⟩
  · exact he.distinctRows h
  · rw [hdb]
    exact h

theorem untouched_entered {w w' : World} {env : Env} :
    Untouched (w.entered env) w' ↔ Untouched w w' :=
  ⟨fun h => ⟨h.sessions, h.events, h.rows, h.eventRows, h.alerts, h.pending, h.frames⟩,
    fun h => ⟨h.sessions, h.events, h.rows, h.eventRows, h.alerts, h.pending, h.frames⟩⟩

theorem admitted_entered {w : World} {env : Env} {source : AgentSource}
    {externalSessionId : String} {s : AgentSession} :
    Admitted (w.entered env) source externalSessionId s ↔
      Admitted w source externalSessionId s :=
  ⟨fun h => ⟨h.valid, h.events, h.resolved⟩, fun h => ⟨h.valid, h.events, h.resolved⟩⟩

theorem failsClean_entered {w : World} {env : Env} {command : IngestCommand} :
    FailsClean (w.entered env) command ↔ FailsClean w command := by
  cases command with
  | sessionUpdate cmd => simp only [FailsClean, admitted_entered]
  | sessionEnd cmd =>
    simp only [FailsClean, admitted_entered]
    exact Iff.rfl
  | _ => exact Iff.rfl

/-- In every reachable state, a command rejected by a repository that does not fail leaves
everything as it was exactly if it fails clean. -/
theorem rejected_untouched_iff {cfg : CoreConfig} {env₀ : Env} {settings : PublicSettings}
    {db : Database} {s₀ s : CoreState} {acts : List CoreAct} {env : Env}
    {command : IngestCommand} (hdb : DistinctRows db.sessions)
    (hstart : startCore cfg env₀ settings db = some s₀)
    (hrun : run (coreStep cfg) s₀ acts = some s)
    (hrepo : ∀ detail w',
      ingest cfg env command (s.world.entered env) ≠ .error (.other detail) w') :
    (∀ e w', ingest cfg env command (s.world.entered env) = .error (.err e) w' →
      Untouched s.world w') ↔ FailsClean s.world command := by
  have hkeyed := keyed_run hstart hrun
  have hrows := distinctRows_run hdb hstart hrun
  have hiff := rejected_untouched (w := s.world.entered env) hkeyed hrows hrepo
  simp only [untouched_entered, failsClean_entered] at hiff
  exact hiff

/-- A running session. -/
def startedRun : List CoreAct :=
  CoreAct.perform 0 (.ingest (.sessionStart (sampleStart .generic "e"))) { uuid := 1 }

/-- An update with a status that may not follow. -/
def badUpdate (label : Option String) : SessionUpdateCommand where
  source := .generic
  externalSessionId := "e"
  status := some .starting
  label := label
  workspaceLabel := none
  occurredAtMs := 5

/-- An update without labels is rejected and meets the hypotheses. -/
theorem rejected_untouched_startedRun :
    ∃ s₀ s w', startCore sampleCoreConfig {} sampleSettings
        { integrations := sampleIntegrations } = some s₀ ∧
      run (coreStep sampleCoreConfig) s₀ startedRun = some s ∧
      ingest sampleCoreConfig {} (.sessionUpdate (badUpdate none)) (s.world.entered {}) =
        .error (.err (.invalidTransition .running .starting)) w' ∧ Untouched s.world w' := by
  have hrun : ((startCore sampleCoreConfig {} sampleSettings
      { integrations := sampleIntegrations }).bind fun s₀ =>
        (run (coreStep sampleCoreConfig) s₀ startedRun).bind fun s =>
          match ingest sampleCoreConfig {} (.sessionUpdate (badUpdate none))
            (s.world.entered {}) with
          | .ok _ _ => none
          | .error f _ => some f) = some (.err (.invalidTransition .running .starting)) := by
    decide
  obtain ⟨s₀, hs₀, hrun⟩ := Option.bind_eq_some_iff.1 hrun
  obtain ⟨s, hs, hrun⟩ := Option.bind_eq_some_iff.1 hrun
  split at hrun
  · cases hrun
  · rename_i f w' hexec
    cases hrun
    refine ⟨s₀, s, w', hs₀, hs, hexec, ?_⟩
    refine (rejected_untouched_iff ⟨by simp, by simp⟩ hs₀ hs ?_).2 ?_ _ w' hexec
    · intro detail w'' h
      rw [hexec] at h
      cases h
    · intro u _ _
      have hkeeps : KeepsLabel u (badUpdate none) := fun label h => by cases h
      split
      · exact fun _ => ⟨hkeeps, fun workspace h => by cases h⟩
      · exact hkeeps

/-- An update with a new label is rejected, and the label stays. -/
theorem rejected_update_renames :
    ∃ s₀ s w', startCore sampleCoreConfig {} sampleSettings
        { integrations := sampleIntegrations } = some s₀ ∧
      run (coreStep sampleCoreConfig) s₀ startedRun = some s ∧
      ingest sampleCoreConfig {} (.sessionUpdate (badUpdate (some "renamed")))
        (s.world.entered {}) = .error (.err (.invalidTransition .running .starting)) w' ∧
      ¬ Untouched s.world w' := by
  have hrun : ((startCore sampleCoreConfig {} sampleSettings
      { integrations := sampleIntegrations }).bind fun s₀ =>
        (run (coreStep sampleCoreConfig) s₀ startedRun).bind fun s =>
          match ingest sampleCoreConfig {} (.sessionUpdate (badUpdate (some "renamed")))
            (s.world.entered {}) with
          | .ok _ _ => none
          | .error f w' => some (f, (s.world.registry.get "Generic:e").map (·.label),
              (w'.registry.get "Generic:e").map (·.label))) =
      some (.err (.invalidTransition .running .starting), some "session", some "renamed") := by
    decide
  obtain ⟨s₀, hs₀, hrun⟩ := Option.bind_eq_some_iff.1 hrun
  obtain ⟨s, hs, hrun⟩ := Option.bind_eq_some_iff.1 hrun
  split at hrun
  · cases hrun
  · rename_i f w' hexec
    simp only [Option.some.injEq, Prod.mk.injEq] at hrun
    obtain ⟨rfl, hbefore, hafter⟩ := hrun
    refine ⟨s₀, s, w', hs₀, hs, hexec, fun hu => ?_⟩
    unfold SessionRegistry.get at hbefore hafter
    rw [hu.sessions, hbefore] at hafter
    exact absurd hafter (by decide)

end LlmNotch
