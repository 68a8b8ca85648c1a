import LlmNotch.HostOutcomes
import LlmNotch.RelayIngest
import LlmNotch.RelaySession

/-!
# Which events of relays are taken

A session event that a relay sends has passed the checks of the relay protocol before the host
ingests it. The core checks it again : the summary becomes the label of the session it starts,
cut to the number of characters that the label may have in bytes, and must not be empty, which
the protocol does not ask for.

`relay_admitted_iff` : with a free slot and an integration that supports it, the event of a
session that is not known is taken, so that the session exists and holds it, exactly if its
summary is there and fits as a label after the cut, and its session id is not the id the core
has given another session (`Ingestible`).
-/

namespace LlmNotch

open AppCore

/-! ## Events that are kept -/

/-- What an event says. -/
structure Says (kind : SessionEventKind) (level : EventLevel) (summary : String)
    (toolName : Option String) (occurredAtMs : ℤ) (e : SessionEvent) : Prop where
  kind : e.kind = kind
  level : e.level = level
  summary : e.summary = summary
  toolName : e.toolName = toolName
  occurredAtMs : e.occurredAtMs = occurredAtMs

/-- The session of the source and the external identifier is stored and has the event. -/
def HoldsEvent (w : World) (source : AgentSource) (externalSessionId : String)
    (p : SessionEvent → Prop) : Prop :=
  ∃ s, w.registry.resolveExternal source externalSessionId = some s ∧ s.source = source ∧
    s.externalSessionId = externalSessionId ∧ ∃ e ∈ w.registry.eventsFor s.id, p e

/-- An event of session `id` was recorded, and the sessions stay. -/
structure Logged (id : String) (p : SessionEvent → Prop) (w w' : World) : Prop where
  sessions : w'.registry.sessions = w.registry.sessions
  externalIndex : w'.registry.externalIndex = w.registry.externalIndex
  event : ∃ e ∈ w'.registry.eventsFor id, p e

/-- The index leads to the session. -/
structure IsFound (w : World) (source : AgentSource) (externalSessionId : String)
    (s : AgentSession) : Prop where
  index : w.registry.externalIndex.lookup (externalKey source externalSessionId) = some s.id
  stored : w.registry.sessions.lookup s.id = some s
  source : s.source = source
  externalSessionId : s.externalSessionId = externalSessionId

theorem IsFound.resolve {w : World} {source : AgentSource} {externalSessionId : String}
    {s : AgentSession} (h : IsFound w source externalSessionId s) :
    w.registry.resolveExternal source externalSessionId = some s := by
  rw [SessionRegistry.resolveExternal, h.index]
  exact h.stored

section Rules

variable {w : World} {env : Env} {cfg : CoreConfig}

variable {kind : SessionEventKind} {toolName : Option String} {occurredAtMs : ℤ}
  {E : Fault → World → Prop} {cmd : SessionStartCommand}

theorem wp_appendEvent_logged {id : String} {level : EventLevel} {summary : String}
    {Q : SessionEvent → World → Prop} (hs : (w.registry.sessions.lookup id).isSome = true)
    (hQ : ∀ e w', Logged id (Says kind level summary toolName occurredAtMs) w w' → Q e w') :
    wp (appendEvent env id kind level summary toolName occurredAtMs) w Q
      (fun f _ => StoreFails f) := by
  set e : SessionEvent := ⟨env.uuid, id, w.registry.nextEventSequence id, occurredAtMs, kind, level,
    summary, toolName⟩ with he
  unfold appendEvent
  rw [wp_bind, wp_get, wp_bind, onRegistry, wp_zoom]
  refine SessionRegistry.wp_appendEvent hs rfl ?_
  rw [wp_bind, onStore, wp_zoom, Repository.appendEvent, wp_bind]
  refine Repository.wp_statement (fun _ db _ => ?_) fun _ hd => insertEventSql_fails hd
  refine wp_trimSessionEvents_outcome fun store => ?_
  rw [wp_bind]
  refine hQ _ _ ⟨rfl, rfl, e, ?_, ⟨rfl, rfl, rfl, rfl, rfl⟩⟩
  show e ∈ (w.registry.pushEvent e).eventsFor id
  rw [SessionRegistry.eventsFor_pushEvent, if_pos rfl]
  have hpos : 0 < maxEventsPerSession := by decide
  exact List.mem_of_getLast? (SessionRegistry.getLast?_keepLast_append hpos _ _)

variable {source : AgentSource} {externalSessionId : String} {s : AgentSession}

theorem wp_resolveSessionId_found {Q : String → World → Prop}
    (h : IsFound w source externalSessionId s) (hQ : Q s.id w) :
    wp (resolveSessionId source externalSessionId) w Q E := by
  have hres : w.inner.registry.resolveExternal source externalSessionId = some s := h.resolve
  simp only [resolveSessionId, wp_bind, wp_get, wp_okOr, wp_pure, hres, reduceCtorEq,
    false_implies, and_true]
  exact fun _ h => Option.some.inj h ▸ hQ

theorem wp_requireEvents_supported {Q : Unit → World → Prop}
    (h : ∃ c, w.inner.integrations.find? (·.source = source) = some c ∧ c.events = true)
    (hQ : Q () w) : wp (requireEvents source) w Q E := by
  obtain ⟨c, hc, hevents⟩ := h
  unfold requireEvents
  rw [wp_bind]
  refine wp_capabilitiesFor_outcome (fun hnone => ?_) fun c' hc' => ?_
  · rw [hc] at hnone
    cases hnone
  · obtain rfl := Option.some.inj (hc.symm.trans hc')
    rw [wp_ensure, hevents]
    exact ⟨fun _ => hQ, fun h => by cases h⟩

/-- The found session was written and got an event. -/
theorem IsFound.holdsEvent {t : AgentSession} {p : SessionEvent → Prop} {v w' : World}
    (h : IsFound w source externalSessionId s) (hid : t.id = s.id) (hsource : t.source = s.source)
    (hext : t.externalSessionId = s.externalSessionId)
    (hv : v.registry = (w.withSession s.id t).registry) (hl : Logged s.id p v w') :
    HoldsEvent w' source externalSessionId p := by
  refine ⟨t, ?_, hsource.trans h.source, hext.trans h.externalSessionId, hid ▸ hl.event⟩
  have hindex : w'.registry.externalIndex = w.registry.externalIndex := by
    rw [hl.externalIndex, hv]
    rfl
  rw [SessionRegistry.resolveExternal, hindex, h.index, Option.bind_some, hl.sessions, hv]
  exact lookup_withSession t h.stored

/-- A session that gets an event at a time. -/
theorem wp_touched_logged {level : EventLevel} {summary : String}
    {result : SessionEvent → IngestResult} (h : IsFound w source externalSessionId s) :
    wp (do
      touchSession s.id occurredAtMs
      let event ← appendEvent env s.id kind level summary toolName occurredAtMs
      pure (result event)) w
      (fun _ w' => HoldsEvent w' source externalSessionId
        (Says kind level summary toolName occurredAtMs)) fun f _ => StoreFails f := by
  set t : AgentSession := { s with lastEventAtMs := occurredAtMs }
  have hget : w.inner.registry.get s.id = some s := h.stored
  unfold touchSession
  simp only [wp_bind, wp_get, hget]
  rw [wp_assign_iff]
  refine wp_mono (wp_storeSession_outcome fun store _ => ?_) (fun _ _ h => h) fun _ _ h => h
  have hstored : ((w.withSession s.id t).setStore store).registry.sessions.lookup s.id = some t :=
    lookup_withSession t h.stored
  refine wp_appendEvent_logged (Option.isSome_iff_exists.2 ⟨t, hstored⟩) fun e w' hl => ?_
  exact h.holdsEvent (t := t) (v := (w.withSession s.id t).setStore store) rfl rfl rfl rfl hl

/-- The integration of the source reports events. -/
def ReportsEvents (w : World) (source : AgentSource) : Prop :=
  ∃ c, w.inner.integrations.find? (·.source = source) = some c ∧ c.events = true

theorem wp_lifecycleEvent_logged {cmd : LifecycleEventCommand}
    (h : IsFound w cmd.source cmd.externalSessionId s)
    (hext : validateExternalSessionId cmd.externalSessionId = .ok ())
    (hsummary : validateEventSummary cmd.summary = .ok ())
    (hevents : ReportsEvents w cmd.source) :
    wp (lifecycleEvent env cmd) w
      (fun _ w' => HoldsEvent w' cmd.source cmd.externalSessionId
        (Says .lifecycle cmd.level cmd.summary none cmd.occurredAtMs)) fun f _ => StoreFails f := by
  refine wp_check_bind (fun hbad => absurd hext hbad) fun _ =>
    wp_check_bind (fun hbad => absurd hsummary hbad) fun _ => ?_
  rw [wp_bind]
  refine wp_requireEvents_supported hevents ?_
  rw [wp_bind]
  exact wp_resolveSessionId_found h (wp_touched_logged h)

theorem wp_toolEvent_logged {cmd : ToolEventCommand}
    (h : IsFound w cmd.source cmd.externalSessionId s)
    (hext : validateExternalSessionId cmd.externalSessionId = .ok ())
    (hsummary : validateEventSummary cmd.summary = .ok ())
    (htool : validateOptional validateToolName cmd.toolName = .ok ())
    (hevents : ReportsEvents w cmd.source) :
    wp (toolEvent env cmd) w
      (fun _ w' => HoldsEvent w' cmd.source cmd.externalSessionId
        (Says .tool cmd.level cmd.summary cmd.toolName cmd.occurredAtMs))
      fun f _ => StoreFails f := by
  refine wp_check_bind (fun hbad => absurd hext hbad) fun _ =>
    wp_check_bind (fun hbad => absurd hsummary hbad) fun _ =>
    wp_check_bind (fun hbad => absurd htool hbad) fun _ => ?_
  rw [wp_bind]
  refine wp_requireEvents_supported hevents ?_
  rw [wp_bind]
  exact wp_resolveSessionId_found h (wp_touched_logged h)

theorem wp_attention_logged {cmd : AttentionCommand}
    (h : IsFound w cmd.source cmd.externalSessionId s)
    (hsummary : validateEventSummary cmd.summary = .ok ())
    (hsupports : Supports w cmd.source cmd.externalSessionId cmd.attention) :
    wp (attention env cmd) w
      (fun _ w' => HoldsEvent w' cmd.source cmd.externalSessionId
        (Says .attention cmd.level cmd.summary none cmd.occurredAtMs)) fun f _ => StoreFails f := by
  obtain ⟨hext, c, hc, hattention⟩ := hsupports
  refine wp_check_bind (fun hbad => absurd hext hbad) fun _ =>
    wp_check_bind (fun hbad => absurd hsummary hbad) fun _ => ?_
  rw [wp_bind]
  refine wp_capabilitiesFor_outcome (fun hnone => ?_) fun c' hc' => ?_
  · rw [hc] at hnone
    cases hnone
  obtain rfl := Option.some.inj (hc.symm.trans hc')
  rw [wp_bind, ensureAttentionCapability, wp_ensure, hattention]
  refine ⟨fun _ => ?_, fun hno => by cases hno⟩
  rw [wp_bind]
  refine wp_resolveSessionId_found h ?_
  have hget : w.inner.registry.get s.id = some s := h.stored
  simp only [resolvedSession, wp_bind, wp_get, wp_expect, hget]
  refine ⟨fun s' hs' => ?_, fun hno => by cases hno⟩
  cases hs'
  rw [wp_assign_iff]
  refine wp_mono (wp_storeSession_outcome fun store _ => ?_) (fun _ _ h => h) fun _ _ h => h
  rw [wp_modify]
  have hstored := lookup_withSession (alerted s cmd) h.stored
  refine wp_appendEvent_logged (Option.isSome_iff_exists.2 ⟨_, hstored⟩) fun e w' hl => ?_
  exact h.holdsEvent (t := alerted s cmd) rfl rfl rfl rfl ⟨hl.sessions, hl.externalIndex, hl.event⟩

/-! ## A session that is started -/

theorem wp_knownKey_outcome {key : String} {Q : Bool → World → Prop}
    (hQ : ∀ known store, Q known (w.setStore store)) :
    wp (knownKey key occurredAtMs) w Q fun f _ => StoreFails f := by
  unfold knownKey
  rw [wp_bind, wp_get]
  split
  · exact hQ true w.store
  · rw [onStore, wp_zoom]
    refine Repository.wp_statement (fun known db _ => hQ known _) fun detail hd => ?_
    refine ⟨_, diskError_mem, hd.elim (fun h => by rw [h]) fun h => ?_⟩
    split at h <;> cases h

/-- A start of a session the index does not have is no replay. -/
theorem wp_replayedStart_fresh {Q : Option AgentSession → World → Prop}
    (hindex : w.registry.externalIndex.lookup (externalKey cmd.source cmd.externalSessionId) = none)
    (hQ : ∀ w', SameRegistry w.registry w'.registry →
      w'.inner.integrations = w.inner.integrations → Q none w') :
    wp (replayedStart cmd) w Q fun f _ => StoreFails f := by
  unfold replayedStart
  cases cmd.idempotencyKey with
  | none => exact hQ w (SameRegistry.refl _) rfl
  | some key =>
    rw [wp_bind]
    refine wp_knownKey_outcome fun known store => ?_
    have hres : w.inner.registry.resolveExternal cmd.source cmd.externalSessionId = none := by
      rw [SessionRegistry.resolveExternal]
      exact congrArg (Option.bind · _) hindex
    rw [wp_bind, wp_get]
    split
    · rename_i session hfound
      cases hres.symm.trans hfound
    · simp only [wp_bind, onRegistry, wp_zoom, SessionRegistry.recordIdempotency, wp_modify,
        wp_pure]
      exact hQ _ ⟨rfl, rfl, rfl⟩ rfl

theorem wp_openSession_found (hext : validateExternalSessionId s.externalSessionId = .ok ())
    (hs : w.registry.sessions.lookup s.id = some s) :
    wp (openSession env cmd s) w
      (fun _ w' => (∃ t, IsFound w' s.source s.externalSessionId t) ∧
        w'.inner.integrations = w.inner.integrations) fun f _ => StoreFails f := by
  unfold openSession
  rw [wp_bind]
  refine wp_storeSession_outcome fun store _ => ?_
  rw [wp_bind]
  refine wp_appendEvent_outcome (Option.isSome_iff_exists.2 ⟨s, hs⟩) fun e w₁ _ h₁ => ?_
  rw [wp_bind, onRegistry, wp_zoom, SessionRegistry.upsertSession, wp_bind, wp_check]
  refine ⟨fun _ _ => ?_, fun e he => by rw [hext] at he; cases he⟩
  rw [wp_modify, wp_bind]
  refine wp_storeSession_outcome fun store' _ => ?_
  refine ⟨⟨{ s with lastEventAtMs := cmd.occurredAtMs }, ?_, ?_, rfl, rfl⟩, h₁.integrations⟩
  · exact AList.lookup_insert _
  · exact AList.lookup_insert _

/-- A valid start with a free slot and an integration that reports events opens a session. -/
theorem wp_sessionStart_fresh (cmd : SessionStartCommand)
    (hext : validateExternalSessionId cmd.externalSessionId = .ok ())
    (hlabel : validateSessionLabel cmd.label = .ok ())
    (hworkspace : validateOptional validateWorkspaceLabel cmd.workspaceLabel = .ok ())
    (hstatus : validateStartStatus cmd.status = .ok ()) (hevents : ReportsEvents w cmd.source)
    (hindex : w.registry.externalIndex.lookup (externalKey cmd.source cmd.externalSessionId) = none)
    (hroom : w.registry.len < maxSessions) :
    wp (sessionStart cfg env cmd) w
      (fun _ w' => (∃ t, IsFound w' cmd.source cmd.externalSessionId t) ∧
        w'.inner.integrations = w.inner.integrations) fun f _ => StoreFails f := by
  refine wp_check_bind (fun hbad => absurd hext hbad) fun _ =>
    wp_check_bind (fun hbad => absurd hlabel hbad) fun _ =>
    wp_check_bind (fun hbad => absurd hworkspace hbad) fun _ => ?_
  rw [wp_bind]
  refine wp_replayedStart_fresh hindex fun w₁ hr hi => ?_
  have hevents₁ : ReportsEvents w₁ cmd.source := by
    unfold ReportsEvents
    rw [hi]
    exact hevents
  dsimp only
  rw [wp_bind]
  refine wp_requireEvents_supported hevents₁ (wp_check_bind (fun hbad => absurd hstatus hbad)
    fun _ => ?_)
  have hindex₁ : w₁.inner.registry.externalIndex.lookup
      (externalKey cmd.source cmd.externalSessionId) = none := hr.externalIndex ▸ hindex
  have hres : w₁.inner.registry.resolveExternal cmd.source cmd.externalSessionId = none := by
    rw [SessionRegistry.resolveExternal, hindex₁]
    rfl
  have hroom₁ : w₁.inner.registry.len < maxSessions := by
    have hlen : w₁.registry.len = w.registry.len := congrArg Dict.size hr.sessions
    exact hlen ▸ hroom
  simp only [wp_bind, wp_get, hres]
  have hcandidate : w₁.inner.registry.capacityEvictionCandidate env.sessionsRank = .ok none :=
    if_pos hroom₁
  unfold createSession evict
  simp only [wp_bind, wp_get, hcandidate, wp_check]
  refine ⟨fun candidate hc => ?_, fun e he => by cases he⟩
  cases hc
  simp only [wp_pure, onRegistry, wp_zoom, SessionRegistry.insertNewSession, wp_bind, wp_check,
    wp_get, hindex₁, wp_ensure, SessionRegistry.upsertSession, wp_modify]
  refine ⟨fun _ _ => ⟨fun _ => ⟨fun _ _ => ?_, fun e he => ?_⟩, fun hno => ?_⟩, fun e he => ?_⟩
  · rw [if_neg Bool.false_ne_true]
    refine wp_mono (wp_openSession_found
      (s := newSession cmd (cfg.sessionIdFor cmd.source cmd.externalSessionId)) hext
      (AList.lookup_insert _)) (fun _ w' hw' => ⟨hw'.1, ?_⟩) fun _ _ h => h
    exact hw'.2.trans hi
  · rw [show (newSession cmd _).externalSessionId = cmd.externalSessionId from rfl, hext] at he
    cases he
  · exact absurd hroom₁ (of_decide_eq_false hno)
  · rw [hext] at he
    cases he

end Rules

namespace Host

open Ipc

/-! ## Labels -/

theorem validateBounded_iff {value : String} {max : ℕ} {field : String} :
    validateBounded value max field = .ok () ↔ value ≠ "" ∧ value.utf8ByteSize ≤ max := by
  unfold validateBounded
  split
  · rename_i hempty
    have hvalue : value = "" := by simpa using hempty
    simp [hvalue]
  · rename_i hne
    have hvalue : value ≠ "" := by simpa using hne
    split
    · rename_i hlong
      simp [Nat.not_le.2 hlong]
    · rename_i hshort
      simp [hvalue, Nat.not_lt.1 hshort]

theorem length_le_utf8Len (cs : List Char) : cs.length ≤ String.utf8Len cs := by
  induction cs with
  | nil => exact Nat.zero_le _
  | cons c cs ih =>
    have hpos := c.utf8Size_pos
    rw [String.utf8Len_cons, List.length_cons]
    omega

/-- As many bytes as characters. -/
theorem ascii_of_utf8Len_le {cs : List Char} (h : String.utf8Len cs ≤ cs.length) :
    ∀ c ∈ cs, c.utf8Size = 1 := by
  induction cs with
  | nil => simp
  | cons c cs ih =>
    have hpos := c.utf8Size_pos
    have hrest := length_le_utf8Len cs
    rw [String.utf8Len_cons, List.length_cons] at h
    exact List.forall_mem_cons.2 ⟨by omega, ih (by omega)⟩

/-- The label that is made of a summary is valid if the summary is there, and fits or has
characters of one byte only in the part that is kept. -/
theorem truncated_label_iff {summary : String} :
    validateSessionLabel (truncateForSessionLabel summary) = .ok () ↔ summary ≠ "" ∧
      (summary.utf8ByteSize ≤ maxSessionLabelLen ∨
        ∀ c ∈ summary.toList.take maxSessionLabelLen, c.utf8Size = 1) := by
  rw [validateSessionLabel, validateBounded_iff]
  unfold truncateForSessionLabel
  split
  · rename_i hfits
    exact and_congr_right fun _ => iff_of_true hfits (.inl hfits)
  · rename_i hlong
    have hne : summary ≠ "" := by
      rintro rfl
      exact hlong (Nat.zero_le _)
    have hbytes : maxSessionLabelLen < String.utf8Len summary.toList := by
      rw [String.utf8Len_toList]
      exact not_le.1 hlong
    have hkept : String.ofList (summary.toList.take maxSessionLabelLen) ≠ "" := by
      intro he
      have hnil : summary.toList.take maxSessionLabelLen = [] := by
        rw [← String.toList_ofList (l := summary.toList.take maxSessionLabelLen), he]
        rfl
      rcases List.take_eq_nil_iff.1 hnil with h | h
      · exact absurd h (by decide)
      · exact hne (String.toList_eq_nil_iff.1 h)
    rw [String.utf8ByteSize_ofList, or_iff_right hlong]
    refine ⟨fun ⟨_, hle⟩ => ⟨hne, ?_⟩, fun ⟨_, hall⟩ => ⟨hkept, ?_⟩⟩
    · refine ascii_of_utf8Len_le (hle.trans ?_)
      -- a text that is kept whole has too many bytes
      by_contra hshort
      rw [List.length_take] at hshort
      have hwhole : summary.toList.take maxSessionLabelLen = summary.toList :=
        List.take_of_length_le (by omega)
      rw [hwhole] at hle
      omega
    · rw [Json.utf8Len_of_ascii hall, List.length_take]
      exact Nat.min_le_left _ _

/-! ## Events that are taken -/

/-- What the session gets of an event. -/
def RelaySessionEventIngest.Entry (event : RelaySessionEventIngest) : SessionEvent → Prop :=
  match event.kind, event.attention with
  | some .attention, some _ => Says .attention (relayEventLevel event.attention) event.summary none
      event.occurredAtMs.toInt
  | some .tool, _ => Says .tool (relayEventLevel event.attention) event.summary event.toolName
      event.occurredAtMs.toInt
  | _, _ => Says .lifecycle (relayEventLevel event.attention) event.summary none
      event.occurredAtMs.toInt

/-- The integration of the source reports events, and the attention if there is one. -/
def SupportsEvent (w : World) (event : RelaySessionEventIngest) : Prop :=
  ∃ c, w.inner.integrations.find? (·.source = parseIpcSource event.source) = some c ∧
    c.events = true ∧ ∀ kind, event.kind = some .attention → event.attention = some kind →
      supportsAttention c kind = true

/-- The summary is there and becomes a label, and no stored session has the session id of the
event as its internal one. -/
structure Ingestible (w : World) (event : RelaySessionEventIngest) : Prop where
  summary : event.summary ≠ ""
  label : event.summary.utf8ByteSize ≤ maxSessionLabelLen ∨
    ∀ c ∈ event.summary.toList.take maxSessionLabelLen, c.utf8Size = 1
  unnamed : w.registry.sessions.lookup event.externalSessionId = none

/-- The fields of an event are within the bounds of the protocol. -/
structure Bounded (event : RelaySessionEventIngest) : Prop where
  hostId : event.hostId.utf8ByteSize ≤ 64
  sessionId : validateExternalSessionId event.externalSessionId = .ok ()
  summary : event.summary.utf8ByteSize ≤ maxEventSummaryLen
  toolName : validateOptional validateToolName event.toolName = .ok ()

section Relay

variable {cfg : CoreConfig} {h : HostWorld} {event : RelaySessionEventIngest}

theorem outOfBounds_eq_false {max : ℕ} {value : String} :
    Relay.outOfBounds max value = false ↔ value ≠ "" ∧ value.utf8ByteSize ≤ max := by
  unfold Relay.outOfBounds
  rw [Bool.or_eq_false_iff, decide_eq_false_iff_not, not_lt]
  exact and_congr_left fun _ => by rw [← Bool.not_eq_true, String.isEmpty_iff]

/-- What the protocol promises of an event. -/
theorem bounded_of_validateAfter {hello : Relay.RelayHello} (hhello : hello.validate = .ok ())
    {frame : Relay.RelayFrame} {last : ℕ} (hframe : frame.validateAfter last = .ok ())
    (hevent : extractRelaySessionEvent hello.hostId frame = some event) : Bounded event := by
  have hhost : Relay.outOfBounds 64 hello.hostId = false := by
    unfold Relay.RelayHello.validate at hhello
    split at hhello
    · cases hhello
    · split at hhello
      · cases hhello
      · rename_i hbounds
        simp only [Bool.or_eq_true, not_or, Bool.not_eq_true] at hbounds
        exact hbounds.1.1
  obtain ⟨-, hpayload, -⟩ := Relay.validateAfter_ok_iff.1 hframe
  cases hsession : frame.payload with
  | sessionEvent sessionId source summary occurredAtMs kind toolName attention =>
    rw [extractRelaySessionEvent, hsession] at hevent
    cases hevent
    rw [hsession, Relay.validatePayload] at hpayload
    split at hpayload
    · cases hpayload
    · rename_i hbounds
      simp only [Bool.or_eq_true, not_or, Bool.not_eq_true, decide_eq_false_iff_not] at hbounds
      obtain ⟨⟨⟨hid, -⟩, hsummary⟩, htool⟩ := hbounds
      refine ⟨(outOfBounds_eq_false.1 hhost).2, ?_, not_lt.1 hsummary, ?_⟩
      · exact validateBounded_iff.2 (outOfBounds_eq_false.1 hid)
      · cases toolName with
        | none => rfl
        | some name => exact validateBounded_iff.2 (outOfBounds_eq_false.1 htool)
  | checkpoint =>
    rw [extractRelaySessionEvent, hsession] at hevent
    cases hevent
  | heartbeat =>
    rw [extractRelaySessionEvent, hsession] at hevent
    cases hevent
  | error code =>
    rw [extractRelaySessionEvent, hsession] at hevent
    cases hevent

theorem validateEventSummary_of_bounded (hb : Bounded event) (hsummary : event.summary ≠ "") :
    validateEventSummary event.summary = .ok () :=
  validateBounded_iff.2 ⟨hsummary, hb.summary⟩

/-- The command of an event reaches the session. -/
theorem wp_command_logged {w : World} {env : Env} {s : AgentSession} (hb : Bounded event)
    (hsummary : event.summary ≠ "") (hsupports : SupportsEvent w event)
    (h : IsFound w (parseIpcSource event.source) event.externalSessionId s) :
    wp (handleIngest cfg env (event.command (parseIpcSource event.source))) w
      (fun _ w' => HoldsEvent w' (parseIpcSource event.source) event.externalSessionId event.Entry)
      fun f _ => StoreFails f := by
  obtain ⟨c, hc, hevents, hattention⟩ := hsupports
  have hreports : ReportsEvents w (parseIpcSource event.source) := ⟨c, hc, hevents⟩
  have hvalid := validateEventSummary_of_bounded hb hsummary
  have hlifecycle : wp (lifecycleEvent env ⟨parseIpcSource event.source, event.externalSessionId,
      relayEventLevel event.attention, event.summary, event.occurredAtMs.toInt⟩) w
      (fun _ w' => HoldsEvent w' (parseIpcSource event.source) event.externalSessionId
        (Says .lifecycle (relayEventLevel event.attention) event.summary none
          event.occurredAtMs.toInt)) fun f _ => StoreFails f :=
    wp_lifecycleEvent_logged h hb.sessionId hvalid hreports
  have htool : wp (toolEvent env ⟨parseIpcSource event.source, event.externalSessionId,
      relayEventLevel event.attention, event.summary, event.toolName,
      event.occurredAtMs.toInt⟩) w
      (fun _ w' => HoldsEvent w' (parseIpcSource event.source) event.externalSessionId
        (Says .tool (relayEventLevel event.attention) event.summary event.toolName
          event.occurredAtMs.toInt)) fun f _ => StoreFails f :=
    wp_toolEvent_logged h hb.sessionId hvalid hb.toolName hreports
  unfold RelaySessionEventIngest.command RelaySessionEventIngest.Entry
  cases hkind : event.kind with
  | none => exact hlifecycle
  | some kind =>
    cases kind with
    | lifecycle => exact hlifecycle
    | status => exact hlifecycle
    | tool => exact htool
    | attention =>
      cases hsome : event.attention with
      | none =>
        rw [hsome] at hlifecycle
        exact hlifecycle
      | some kind =>
        exact wp_attention_logged h hvalid ⟨hb.sessionId, c, hc, hattention kind hkind hsome⟩

/-- The command of an event of an unknown session is refused. -/
theorem wp_command_unknown {w : World} {env : Env}
    (hres : w.registry.resolveExternal (parseIpcSource event.source) event.externalSessionId =
      none) :
    wp (handleIngest cfg env (event.command (parseIpcSource event.source))) w
      (fun _ _ => False) fun _ _ => True := by
  have hunknown : ∀ {β : Type} {f : String → CoreM β} (w' : World), w'.registry = w.registry →
      wp (AppCore.resolveSessionId (parseIpcSource event.source) event.externalSessionId >>= f) w'
        (fun _ _ => False) fun _ _ => True := by
    intro β f w' hw'
    have hres' : w'.inner.registry.resolveExternal (parseIpcSource event.source)
        event.externalSessionId = none := by
      rw [← hw'] at hres
      exact hres
    simp [AppCore.resolveSessionId, hres']
  unfold RelaySessionEventIngest.command
  split
  · refine wp_check_bind (fun _ _ => trivial) fun _ =>
      wp_check_bind (fun _ _ => trivial) fun _ => ?_
    rw [wp_bind]
    refine wp_capabilitiesFor_outcome (fun _ _ => trivial) fun c hc => ?_
    rw [wp_bind, ensureAttentionCapability, wp_ensure]
    exact ⟨fun _ => hunknown w rfl, fun _ => trivial⟩
  · refine wp_check_bind (fun _ _ => trivial) fun _ => wp_check_bind (fun _ _ => trivial) fun _ =>
      wp_check_bind (fun _ _ => trivial) fun _ => ?_
    rw [requireEvents, bind_assoc, wp_bind]
    refine wp_capabilitiesFor_outcome (fun _ _ => trivial) fun c hc => ?_
    rw [wp_bind, wp_ensure]
    exact ⟨fun _ => hunknown w rfl, fun _ => trivial⟩
  · refine wp_check_bind (fun _ _ => trivial) fun _ =>
      wp_check_bind (fun _ _ => trivial) fun _ => ?_
    rw [requireEvents, bind_assoc, wp_bind]
    refine wp_capabilitiesFor_outcome (fun _ _ => trivial) fun c hc => ?_
    rw [wp_bind, wp_ensure]
    exact ⟨fun _ => hunknown w rfl, fun _ => trivial⟩

/-- The core starts the session of an event unless its label is not valid. -/
theorem wp_startRelay_outcome (hb : Bounded event) (hsupports : SupportsEvent h.world event)
    (hindex : h.world.registry.externalIndex.lookup
      (externalKey (parseIpcSource event.source) event.externalSessionId) = none)
    (hroom : h.world.registry.len < maxSessions) {Q : Unit → HostWorld → Prop}
    {E : HostFault → HostWorld → Prop} (hE : ∀ f h', Denied f → E f h')
    (hbad : validateSessionLabel (truncateForSessionLabel event.summary) ≠ .ok () →
      ∀ f h', E f h')
    (hQ : validateSessionLabel (truncateForSessionLabel event.summary) = .ok () → ∀ h' s,
      IsFound h'.world (parseIpcSource event.source) event.externalSessionId s →
      h'.world.inner.integrations = h.world.inner.integrations → Q () h') :
    wp (do
      let _ ← ingestCore cfg (.sessionStart (event.startCommand (parseIpcSource event.source))))
      h Q E := by
  rw [wp_bind, ingestCore, wp_callCore, AppCore.ingest, wp_bind]
  by_cases hlabel : validateSessionLabel (truncateForSessionLabel event.summary) = .ok ()
  · have hworkspace : validateWorkspaceLabel ("remote:" ++ event.hostId) = .ok () := by
      refine validateBounded_iff.2 ⟨fun he => ?_, ?_⟩
      · have hsize := congrArg String.utf8ByteSize he
        rw [String.utf8ByteSize_append] at hsize
        simp at hsize
      · have hhost := hb.hostId
        have hmax : maxWorkspaceLabelLen = 256 := rfl
        have hword : "remote:".utf8ByteSize = 7 := by decide
        rw [String.utf8ByteSize_append]
        omega
    obtain ⟨c, hc, hevents, -⟩ := hsupports
    refine wp_mono (wp_sessionStart_fresh (event.startCommand (parseIpcSource event.source))
      hb.sessionId hlabel hworkspace rfl ⟨c, hc, hevents⟩ hindex hroom) (fun r w' hw' => ?_)
      fun f w' hf => hE _ _ (denied_of_storeFails hf)
    obtain ⟨⟨s, hs⟩, hi⟩ := hw'
    refine hQ hlabel _ s ⟨?_, ?_, hs.source, hs.externalSessionId⟩ ?_
    · show (w'.flush _).registry.externalIndex.lookup _ = _
      rw [registry_flush]
      exact hs.index
    · show (w'.flush _).registry.sessions.lookup _ = _
      rw [registry_flush]
      exact hs.stored
    · exact (integrations_flush w' _).trans hi
  · exact wp_check_bind (fun _ e => hbad hlabel _ _) fun _ =>
      wp_check_bind (fun _ e => hbad hlabel _ _) fun hok => absurd hok hlabel

/-- The last call of the ingest of an event whose session is found. -/
theorem wp_sendEvent_outcome {s : AgentSession} (hb : Bounded event) (hsummary : event.summary ≠ "")
    (hsupports : SupportsEvent h.world event)
    (hs : IsFound h.world (parseIpcSource event.source) event.externalSessionId s) :
    wp (do
      let _ ← ingestCore cfg (event.command (parseIpcSource event.source))
      recordConnectorTraffic (parseIpcSource event.source) event.occurredAtMs.toInt) h
      (fun _ h' => HoldsEvent h'.world (parseIpcSource event.source) event.externalSessionId
        event.Entry) fun f _ => Denied f := by
  rw [wp_bind, ingestCore, wp_callCore, AppCore.ingest, wp_bind]
  refine wp_mono (wp_command_logged hb hsummary hsupports ⟨hs.index, hs.stored, hs.source,
    hs.externalSessionId⟩) (fun r w' hw' => ?_) fun f w' hf => denied_of_storeFails hf
  have hflushed : HoldsEvent (w'.flush h.env.core) (parseIpcSource event.source)
      event.externalSessionId event.Entry := by
    unfold HoldsEvent
    rw [registry_flush]
    exact hw'
  show wp (recordConnectorTraffic _ _) _ _ _
  rw [recordConnectorTraffic, wp_onlyIf, wp_modify]
  exact ⟨fun _ => hflushed, fun _ => hflushed⟩

/-- What the ingest of an event of an unknown session comes to. -/
theorem wp_relay_outcome (hk : Keyed h.world.registry) (hf : Findable h.world.registry)
    (hb : Bounded event) (hsource : parseIpcSource event.source ≠ .unknown)
    (hindex : h.world.registry.externalIndex.lookup
      (externalKey (parseIpcSource event.source) event.externalSessionId) = none)
    (hroom : h.world.registry.len < maxSessions) (hsupports : SupportsEvent h.world event) :
    wp (ingestRelaySessionEvent cfg event) h
      (fun _ h' => Ingestible h.world event ∧ HoldsEvent h'.world (parseIpcSource event.source)
        event.externalSessionId event.Entry)
      fun f _ => Denied f ∨ ¬ Ingestible h.world event := by
  have hid := (validateBounded_iff.1 hb.sessionId).1
  unfold ingestRelaySessionEvent
  dsimp only
  rw [if_neg hsource, if_neg hid]
  split
  · rename_i hempty
    exact .inr fun hi => hi.summary hempty
  rename_i hsummary
  rw [wp_bind]
  unfold startRelaySession
  simp only [resolveSession, wp_bind, wp_snapshotSessions, wp_pure, snapshot_sketch]
  have hmatch : ∀ s ∈ h.sketch.snapshot, matchesSession event.externalSessionId
      (parseIpcSource event.source) (some event.externalSessionId) s = true ↔
        s.id = event.externalSessionId := by
    intro s hs
    have hstored := (mem_snapshot hk).1 hs
    have hother : ¬ (s.source = parseIpcSource event.source ∧
        s.externalSessionId = event.externalSessionId) := by
      rintro ⟨hsource, hext⟩
      have hkey := hf _ _ hstored
      rw [AgentSession.key, hsource, hext, hindex] at hkey
      cases hkey
    simp only [matchesSession, decide_eq_true_eq, Option.some.injEq]
    constructor
    · rintro (h | ⟨hsource, h | h⟩)
      · exact h
      · exact absurd ⟨hsource, h⟩ hother
      · exact absurd ⟨hsource, h.symm⟩ hother
    · exact .inl
  cases hfind : h.sketch.snapshot.find? (matchesSession event.externalSessionId
      (parseIpcSource event.source) (some event.externalSessionId)) with
  | some s =>
    have hmem := List.mem_of_find?_eq_some hfind
    have hno : ¬ Ingestible h.world event := by
      intro hi
      have hunnamed := hi.unnamed
      rw [← (hmatch s hmem).1 (List.find?_some hfind), (mem_snapshot hk).1 hmem] at hunnamed
      cases hunnamed
    have hres : (h.world.entered (h.called h.world).env.core).registry.resolveExternal
        (parseIpcSource event.source) event.externalSessionId = none := by
      show (h.world.registry.externalIndex.lookup _).bind _ = none
      rw [hindex]
      rfl
    dsimp only
    rw [wp_pure, ingestCore, wp_callCore, AppCore.ingest, wp_bind]
    exact wp_mono (wp_command_unknown hres) (fun _ _ h => h.elim) fun _ _ _ => .inr hno
  | none =>
    have hunnamed : h.world.registry.sessions.lookup event.externalSessionId = none := by
      by_contra hthere
      obtain ⟨s, hs⟩ := Option.ne_none_iff_exists'.1 hthere
      have hid' := hk.id hs
      have hmem : s ∈ h.sketch.snapshot := (mem_snapshot hk).2 (hid'.symm ▸ hs)
      exact List.find?_eq_none.1 hfind s hmem ((hmatch s hmem).2 hid')
    dsimp only
    refine wp_startRelay_outcome (h := h.called h.world) hb hsupports hindex hroom
      (fun f h' hd => .inl hd) (fun hbad f h' => .inr fun hi => hbad ?_) fun hlabel h' s hs hi => ?_
    · exact truncated_label_iff.2 ⟨hi.summary, hi.label⟩
    · have hsupports' : SupportsEvent h'.world event := by
        unfold SupportsEvent
        rw [hi]
        exact hsupports
      have hingestible : Ingestible h.world event :=
        ⟨hsummary, (truncated_label_iff.1 hlabel).2, hunnamed⟩
      exact (wp_bind _ _).1 (wp_mono (wp_sendEvent_outcome hb hsummary hsupports' hs)
        (fun _ _ hheld => ⟨hingestible, hheld⟩) fun _ _ hd => .inl hd)

end Relay

/-- In every reachable state with a free slot and an integration that supports it, an event that
passed the checks of the protocol and belongs to no known session is taken exactly if its summary
is there and becomes a label, and its session id is not an internal one. -/
theorem relay_admitted_iff {cfg : CoreConfig} {env : Env} {settings : PublicSettings}
    {db : Database} {s₀ s : CoreState} {acts : List CoreAct} (hdb : DistinctRows db.sessions)
    (hstart : startCore cfg env settings db = some s₀)
    (hrun : run (coreStep cfg) s₀ acts = some s) {h : HostWorld} (hworld : h.world = s.world)
    {hello : Relay.RelayHello} (hhello : hello.validate = .ok ()) {frame : Relay.RelayFrame}
    {last : ℕ} (hframe : frame.validateAfter last = .ok ()) {event : RelaySessionEventIngest}
    (hevent : extractRelaySessionEvent hello.hostId frame = some event)
    (hsource : parseIpcSource event.source ≠ .unknown)
    (hnew : h.world.registry.externalIndex.lookup
      (externalKey (parseIpcSource event.source) event.externalSessionId) = none)
    (hroom : h.world.registry.len < maxSessions) (hsupports : SupportsEvent h.world event)
    (hrepo : ∀ text h', ingestRelaySessionEvent cfg event h = .error (.rejected text) h' →
      text ∉ sqliteErrors) :
    (∃ h', ingestRelaySessionEvent cfg event h = .ok () h' ∧
      HoldsEvent h'.world (parseIpcSource event.source) event.externalSessionId event.Entry) ↔
        Ingestible h.world event := by
  have hk : Keyed h.world.registry := hworld ▸ keyed_run hstart hrun
  have hf : Findable h.world.registry := hworld ▸ findable_run hdb hstart hrun
  have hb := bounded_of_validateAfter hhello hframe hevent
  have hwp : wp (ingestRelaySessionEvent cfg event) h _ _ :=
    wp_relay_outcome hk hf hb hsource hnew hroom hsupports
  constructor
  · rintro ⟨h', hexec, -⟩
    exact (wp_ok hwp hexec).1
  · intro hi
    cases hexec : ingestRelaySessionEvent cfg event h with
    | ok a h' => exact ⟨h', rfl, (wp_ok hwp hexec).2⟩
    | error f h' =>
      rcases wp_error hwp hexec with ⟨text, htext, rfl⟩ | hno
      · exact absurd htext (hrepo text h' hexec)
      · exact absurd hi hno

/-! ## Two events -/

/-- A frame that reports a lifecycle event with a summary. -/
def summaryFrame (summary : String) : Relay.RelayFrame where
  sequence := 1
  payload := .sessionEvent "r" "generic" summary 9 none none none

def summaryEvent (summary : String) : RelaySessionEventIngest where
  hostId := (Relay.SessionRun.sampleHello 0).hostId
  externalSessionId := "r"
  source := "generic"
  summary
  occurredAtMs := 9
  kind := none
  toolName := none
  attention := none

/-- Two hundred letters of two bytes. -/
def accentedSummary : String := String.ofList (List.replicate 200 'é')

theorem sampleHello_valid : (Relay.SessionRun.sampleHello 0).validate = .ok () := by
  decide

/-- The state of a host that has just started. -/
theorem started_host : ∃ s, startCore sampleCoreConfig {} sampleSettings
      { integrations := sampleIntegrations } = some s ∧
    s.world.registry.externalIndex.lookup (externalKey .generic "r") = none ∧
    s.world.registry.len < maxSessions ∧ s.world.registry.sessions.lookup "r" = none ∧
    ∀ summary, SupportsEvent s.world (summaryEvent summary) := by
  have heval : (startCore sampleCoreConfig {} sampleSettings
      { integrations := sampleIntegrations }).map (fun s =>
        (s.world.registry.externalIndex.lookup (externalKey .generic "r"),
          decide (s.world.registry.len < maxSessions), s.world.registry.sessions.lookup "r",
          (s.world.inner.integrations.find? (·.source = .generic)).any (·.events))) =
      some (none, true, none, true) := by
    decide
  obtain ⟨s, hs, hvalues⟩ := Option.map_eq_some_iff.1 heval
  simp only [Prod.mk.injEq, decide_eq_true_eq, Option.any_eq_true] at hvalues
  obtain ⟨hindex, hroom, hstored, c, hc, hevents⟩ := hvalues
  exact ⟨s, hs, hindex, hroom, hstored, fun summary => ⟨c, hc, hevents, fun _ h => by cases h⟩⟩

theorem relay_admitted_iff_plain : ∃ s, startCore sampleCoreConfig {} sampleSettings
      { integrations := sampleIntegrations } = some s ∧
    ((∃ h', ingestRelaySessionEvent sampleCoreConfig (summaryEvent "Done") (sampleHost s.world) =
        .ok () h' ∧ HoldsEvent h'.world .generic "r" (summaryEvent "Done").Entry) ↔
      Ingestible s.world (summaryEvent "Done")) := by
  have hrun : (startCore sampleCoreConfig {} sampleSettings
      { integrations := sampleIntegrations }).any (fun s =>
        (returnedState (ingestRelaySessionEvent sampleCoreConfig (summaryEvent "Done")
          (sampleHost s.world))).isSome) = true := by
    decide
  obtain ⟨s, hs, hindex, hroom, -, hsupports⟩ := started_host
  rw [hs, Option.any_some] at hrun
  refine ⟨s, hs, ?_⟩
  have hno : run (coreStep sampleCoreConfig) s [] = some s := rfl
  have hframe : (summaryFrame "Done").validateAfter 0 = .ok () := by decide +kernel
  refine relay_admitted_iff (h := sampleHost s.world) ⟨by simp, by simp⟩ hs hno rfl
    sampleHello_valid hframe rfl (by decide) hindex hroom (hsupports _) fun text h' herror => ?_
  rw [herror] at hrun
  cases hrun

/-- The start of a session under the whole summary : it has no more than 256 characters. -/
def accentedStart : SessionStartCommand :=
  { (summaryEvent accentedSummary).startCommand .generic with label := accentedSummary }

theorem truncate_ofList {text : List Char} (h : text.length ≤ maxSessionLabelLen) :
    truncateForSessionLabel (String.ofList text) = String.ofList text := by
  rw [truncateForSessionLabel]
  split
  · rfl
  · rw [String.toList_ofList, List.take_of_length_le h]

theorem startCommand_accented :
    (summaryEvent accentedSummary).startCommand .generic = accentedStart := by
  have hshort : 200 ≤ maxSessionLabelLen := by decide
  have hlabel : truncateForSessionLabel accentedSummary = accentedSummary :=
    truncate_ofList (List.length_replicate.trans_le hshort)
  exact congrArg (fun label => { (summaryEvent accentedSummary).startCommand .generic with
    label := label }) hlabel

theorem ingest_accented :
    ingestRelaySessionEvent sampleCoreConfig (summaryEvent accentedSummary) = (do
      (do
        match ← resolveSession "r" .generic (some "r") with
        | some _ => pure ()
        | none => let _ ← ingestCore sampleCoreConfig (.sessionStart accentedStart))
      let _ ← ingestCore sampleCoreConfig ((summaryEvent accentedSummary).command .generic)
      recordConnectorTraffic .generic (summaryEvent accentedSummary).occurredAtMs.toInt) := by
  have hsource : parseIpcSource (summaryEvent accentedSummary).source = .generic := by decide
  have hsummary : (summaryEvent accentedSummary).summary ≠ "" := by decide +kernel
  unfold ingestRelaySessionEvent
  dsimp only
  rw [hsource, if_neg (by decide), if_neg (by decide), if_neg hsummary, startRelaySession,
    startCommand_accented]
  rfl

theorem accentedFrame_valid : (summaryFrame accentedSummary).validateAfter 0 = .ok () := by
  have hevent : Relay.BoundedEvent "r" "generic" accentedSummary none :=
    ⟨by decide, by decide, by decide +kernel, rfl⟩
  exact Relay.validateAfter_ok_iff.2 ⟨Nat.zero_lt_one, hevent.validatePayload _ _ _,
    hevent.encodedLen_le _ _ _ (by decide)⟩

/-- An event with a summary of two hundred accented letters passes the checks of the protocol
and is refused. -/
theorem accented_summary_is_refused : ∃ s h', startCore sampleCoreConfig {} sampleSettings
      { integrations := sampleIntegrations } = some s ∧
    (summaryFrame accentedSummary).validateAfter 0 = .ok () ∧
    extractRelaySessionEvent (Relay.SessionRun.sampleHello 0).hostId
      (summaryFrame accentedSummary) = some (summaryEvent accentedSummary) ∧
    s.world.registry.externalIndex.lookup (externalKey .generic "r") = none ∧
    s.world.registry.len < maxSessions ∧ SupportsEvent s.world (summaryEvent accentedSummary) ∧
    ingestRelaySessionEvent sampleCoreConfig (summaryEvent accentedSummary) (sampleHost s.world) =
      .error (.rejected "validation failed: label exceeds 256 bytes") h' := by
  have hrun : (startCore sampleCoreConfig {} sampleSettings
      { integrations := sampleIntegrations }).any (fun s =>
        (failedState (ingestRelaySessionEvent sampleCoreConfig (summaryEvent accentedSummary)
          (sampleHost s.world))).any fun failed =>
            decide (failed.1 = .rejected "validation failed: label exceeds 256 bytes")) =
      true := by
    rw [ingest_accented]
    decide +kernel
  obtain ⟨s, hs, hindex, hroom, -, hsupports⟩ := started_host
  rw [hs, Option.any_some] at hrun
  obtain ⟨⟨f, h'⟩, hfailed, hf⟩ := (Option.any_eq_true _ _).1 hrun
  have herror := failedState_eq_some.1 hfailed
  rw [of_decide_eq_true hf] at herror
  exact ⟨s, h', hs, accentedFrame_valid, rfl, hindex, hroom, hsupports _, herror⟩

end Host

end LlmNotch
