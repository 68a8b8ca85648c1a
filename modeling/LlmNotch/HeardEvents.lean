import LlmNotch.RelayIngest
import LlmNotch.SpoolAgreement
import LlmNotch.VendorHooks

/-!
# How vendor events are heard

What the helper reports is normalized by the host. On a remote machine it is spooled, read and
normalized by the relay, and the host ingests what the relay sends. Each of them has a table of
events, of sources and of attentions.

`vendor_event_heard` : for every report the host hears the moment that the agent meant, and over a
relay the core is given the same command for it. Of the turns of the agent a relay says nothing, and
the start and the end of a session arrive as events.
-/

namespace LlmNotch

namespace Ipc

open Json

variable {fileName : String → Option String} {nonce : Uuid} {now : Int64} {env : CollectorEnv}
  {source vendorEvent externalSessionId : String} {value : Json} {moment : Moment}
  {payload : IngestPayload} {report : VendorReport}

/-! ## What the host hears -/

/-- The payload is about this session, and names no process. -/
def NormalizedIngest.Reports (agent : AgentSource) (externalSessionId id : String) :
    NormalizedIngest → Prop
  | .sessionUpsert session => session.id = id ∧ session.source = agent ∧
      session.externalSessionId = externalSessionId ∧ session.processRoot = none
  | .sessionRemove .. => False
  | .sessionEvent event source external _ => event.sessionId = id ∧ source = agent ∧
      external = some externalSessionId

/-- The host is told of the moment. -/
def Moment.Tells : Moment → NormalizedIngest → Prop
  | started, .sessionUpsert s | turnStarted, .sessionUpsert s =>
    s.status = .running ∧ s.attention = .none ∧ s.endedAtMs = none
  | turnCompleted, .sessionUpsert s =>
    s.status = .waiting ∧ s.attention = .none ∧ s.endedAtMs = none
  | ended, .sessionUpsert s =>
    s.status = .completed ∧ s.attention = .none ∧ s.endedAtMs = some s.lastEventAtMs
  | asks kind, .sessionEvent event _ _ attention => event.kind = .attention ∧ attention = some kind
  | usesTool, .sessionEvent event _ _ attention => event.kind = .tool ∧ attention = none
  | other, .sessionEvent event _ _ attention => event.kind = .lifecycle ∧ attention = none
  | _, _ => False

section Host

variable {stableId : AgentSource → String → String} {agent : AgentSource} {clockMs : ℤ} {uuid : ℕ}

theorem buildSession_carries (h : Carries source externalSessionId moment payload) :
    buildSession stableId payload agent clockMs = .ok
      { id := stableId agent externalSessionId
        source := agent
        externalSessionId := externalSessionId
        label := payload.label.getD "Agent session"
        workspaceLabel := payload.workspaceLabel
        status := (moment.status.bind statusOf).getD .running
        attention := (moment.attention.bind attentionOf).getD .none
        startedAtMs := occurredAt payload clockMs
        lastEventAtMs := occurredAt payload clockMs
        endedAtMs := none
        processRoot := none
        verifiedTerminal := verifiedTerminalFromIngest payload
        latestMetric := none } := by
  unfold buildSession processRootOf parseStatus parseAttention
  rw [h.externalSessionId, h.sessionId, h.pid, h.status, h.attention]
  rfl

theorem attentionOf_attentionName (kind : AttentionKind) :
    attentionOf (Relay.attentionName kind) = some kind := by
  cases kind <;> decide

theorem parseAttention_carries (h : Carries source externalSessionId moment payload) :
    parseAttention payload = match moment with
      | .asks kind => some kind
      | _ => none := by
  unfold parseAttention
  rw [h.attention]
  cases moment with
  | asks kind => exact attentionOf_attentionName kind
  | started | ended | turnStarted | turnCompleted | usesTool | other => rfl

theorem buildEvent_carries (h : Carries source externalSessionId moment payload) {name : String}
    {kind : SessionEventKind} (hkind : parseEventKind name = .ok kind) :
    buildEvent stableId payload agent clockMs uuid name = .ok
      { id := uuid
        sessionId := stableId agent externalSessionId
        sequence := 0
        occurredAtMs := occurredAt payload clockMs
        kind := kind
        level := parseLevel payload
        summary := payload.summary.getD (defaultSummary kind)
        toolName := payload.toolName } := by
  unfold buildEvent resolveSessionId
  rw [h.sessionId, h.externalSessionId, hkind]
  rfl

section

variable (hagent : parseSource payload.source = .ok agent)

include hagent

theorem normalize_upsert {session : AgentSession}
    (hkind : payloadKind (RustText.asciiLowercase payload.event) = some .upsert)
    (hsession : buildSession stableId payload agent clockMs = .ok session) :
    normalizeIngest stableId payload clockMs uuid = .ok (.sessionUpsert session) := by
  unfold normalizeIngest
  rw [hagent]
  dsimp only [Bind.bind, Except.bind]
  rw [hkind]
  dsimp only
  rw [hsession]
  rfl

theorem normalize_ended {session : AgentSession}
    (hkind : payloadKind (RustText.asciiLowercase payload.event) = some .ended)
    (hsession : buildSession stableId payload agent clockMs = .ok session) :
    normalizeIngest stableId payload clockMs uuid = .ok (.sessionUpsert { session with
      status := (parseStatus payload).getD .completed
      endedAtMs := some (occurredAt payload clockMs) }) := by
  unfold normalizeIngest
  rw [hagent]
  dsimp only [Bind.bind, Except.bind]
  rw [hkind]
  dsimp only
  rw [hsession]
  rfl

theorem normalize_event {event : SessionEvent}
    (hkind : payloadKind (RustText.asciiLowercase payload.event) = some .event)
    (hevent : buildEvent stableId payload agent clockMs uuid
      (RustText.asciiLowercase payload.event) = .ok event) :
    normalizeIngest stableId payload clockMs uuid =
      .ok (.sessionEvent event agent payload.externalSessionId (parseAttention payload)) := by
  unfold normalizeIngest
  rw [hagent]
  dsimp only [Bind.bind, Except.bind]
  rw [hkind]
  dsimp only
  rw [hevent]
  rfl

end

/-- The level that a moment has. -/
theorem parseLevel_carries (h : Carries source externalSessionId moment payload) :
    parseLevel payload = match moment with
      | .asks kind => Host.relayEventLevel (some kind)
      | _ => .info := by
  unfold parseLevel
  rw [parseAttention_carries h]
  cases moment with
  | asks kind => cases kind <;> rfl
  | started | ended | turnStarted | turnCompleted | usesTool | other => rfl

end Host

/-- The command of the core for a moment. -/
def Moment.command (agent : AgentSource) (externalSessionId summary : String)
    (toolName : Option String) (occurredAtMs : ℤ) : Moment → IngestCommand
  | asks kind => .attention
      { source := agent
        externalSessionId := externalSessionId
        attention := kind
        level := Host.relayEventLevel (some kind)
        summary := summary
        occurredAtMs := occurredAtMs }
  | usesTool => .toolEvent
      { source := agent
        externalSessionId := externalSessionId
        level := .info
        summary := summary
        toolName := toolName
        occurredAtMs := occurredAtMs }
  | _ => .lifecycleEvent
      { source := agent
        externalSessionId := externalSessionId
        level := .info
        summary := summary
        occurredAtMs := occurredAtMs }

/-- The command that is to reach the core from a remote machine : for an event, what the core is
given for it on this machine; for an update of a session, which a relay does not send as such, an
event with this summary. -/
def NormalizedIngest.remoteCommand (summary : String) : NormalizedIngest → Option IngestCommand
  | .sessionUpsert session => some (.lifecycleEvent
      { source := session.source
        externalSessionId := session.externalSessionId
        level := .info
        summary := summary
        occurredAtMs := session.lastEventAtMs })
  | .sessionRemove .. => none
  | .sessionEvent event source externalSessionId attention =>
    externalSessionId.map fun id => Host.eventCommand event source id attention

section Host

variable {stableId : AgentSource → String → String} {agent : AgentSource} {clockMs : ℤ} {uuid : ℕ}
  {summary : String}

/-- What the host makes of an event, with the kind that its name stands for. -/
theorem heard_event (stableId : AgentSource → String → String) (clockMs : ℤ) (uuid : ℕ)
    (h : Carries source externalSessionId moment payload) (hagent : parseSource source = .ok agent)
    (hsummary : payload.summary = some summary) (name : String) {kind : SessionEventKind}
    (hname : RustText.asciiLowercase moment.event = name)
    (hpayload : payloadKind name = some .event) (hkind : parseEventKind name = .ok kind) :
    ∃ event, normalizeIngest stableId payload clockMs uuid =
        .ok (.sessionEvent event agent (some externalSessionId) (parseAttention payload)) ∧
      event.sessionId = stableId agent externalSessionId ∧ event.kind = kind ∧
      event.level = parseLevel payload ∧ event.summary = summary ∧
      event.toolName = payload.toolName ∧ event.occurredAtMs = occurredAt payload clockMs := by
  rw [← h.source] at hagent
  rw [← h.event] at hname
  rw [← h.externalSessionId]
  refine ⟨_, normalize_event hagent (hname ▸ hpayload) (buildEvent_carries h (hname ▸ hkind)), rfl,
    rfl, rfl, ?_, rfl, rfl⟩
  rw [hsummary]
  rfl

theorem heard_session (stableId : AgentSource → String → String) (clockMs : ℤ) (uuid : ℕ)
    (h : Carries source externalSessionId moment payload) (hagent : parseSource source = .ok agent)
    (hkind : payloadKind (RustText.asciiLowercase moment.event) = some .upsert) :
    ∃ session, normalizeIngest stableId payload clockMs uuid = .ok (.sessionUpsert session) ∧
      (session.id = stableId agent externalSessionId ∧ session.source = agent ∧
        session.externalSessionId = externalSessionId ∧ session.processRoot = none) ∧
      session.status = (moment.status.bind statusOf).getD .running ∧
      session.attention = (moment.attention.bind attentionOf).getD .none ∧
      session.endedAtMs = none ∧ session.lastEventAtMs = occurredAt payload clockMs := by
  rw [← h.source] at hagent
  rw [← h.event] at hkind
  exact ⟨_, normalize_upsert hagent hkind (buildSession_carries h), ⟨rfl, rfl, rfl, rfl⟩, rfl, rfl,
    rfl, rfl⟩

/-- The host is told of the moment, in any words the helper has for it. -/
theorem heard_of_carries (h : Carries source externalSessionId moment payload)
    (hagent : parseSource source = .ok agent) (hsummary : payload.summary = some summary) :
    ∃ ingest, normalizeIngest stableId payload clockMs uuid = .ok ingest ∧
      ingest.Reports agent externalSessionId (stableId agent externalSessionId) ∧
      moment.Tells ingest ∧
      ingest.remoteCommand summary = some (moment.command agent externalSessionId summary
        payload.toolName (occurredAt payload clockMs)) := by
  have hattention := parseAttention_carries h
  have hlevel := parseLevel_carries h
  cases moment with
  | started | turnStarted | turnCompleted =>
    obtain ⟨session, hnormal, hreports, hstatus, hnone, hended, hlast⟩ :=
      heard_session stableId clockMs uuid h hagent (by decide)
    refine ⟨_, hnormal, hreports, ⟨hstatus.trans (by decide), hnone, hended⟩, ?_⟩
    simp only [NormalizedIngest.remoteCommand, hreports.2.1, hreports.2.2.1, hlast, Moment.command]
  | ended =>
    have hstatus : (parseStatus payload).getD .completed = .completed := by
      rw [parseStatus, h.status]
      decide
    have hkind : payloadKind (RustText.asciiLowercase payload.event) = some .ended := by
      rw [h.event]
      decide
    rw [← h.source] at hagent
    exact ⟨_, normalize_ended hagent hkind (buildSession_carries h), ⟨rfl, rfl, rfl, rfl⟩,
      ⟨hstatus, rfl, rfl⟩, rfl⟩
  | asks kind =>
    obtain ⟨event, hnormal, hsession, hkind, hevent, htext, -, hat⟩ :=
      heard_event stableId clockMs uuid h hagent hsummary "attention"
        (show RustText.asciiLowercase "attention" = "attention" by decide) (by decide) rfl
    refine ⟨_, hnormal, ⟨hsession, rfl, rfl⟩, ⟨hkind, hattention⟩, ?_⟩
    simp only [NormalizedIngest.remoteCommand, Option.map_some, Host.eventCommand, hkind, hevent,
      htext, hat, hattention, hlevel, Moment.command]
  | usesTool =>
    obtain ⟨event, hnormal, hsession, hkind, hevent, htext, htool, hat⟩ :=
      heard_event stableId clockMs uuid h hagent hsummary "tool" (by decide) (by decide)
        rfl
    refine ⟨_, hnormal, ⟨hsession, rfl, rfl⟩, ⟨hkind, hattention⟩, ?_⟩
    simp only [NormalizedIngest.remoteCommand, Option.map_some, Host.eventCommand, hkind, hevent,
      htext, hat, htool, hlevel, Moment.command]
  | other =>
    obtain ⟨event, hnormal, hsession, hkind, hevent, htext, -, hat⟩ :=
      heard_event stableId clockMs uuid h hagent hsummary "lifecycle" (by decide) (by decide)
        rfl
    refine ⟨_, hnormal, ⟨hsession, rfl, rfl⟩, ⟨hkind, hattention⟩, ?_⟩
    simp only [NormalizedIngest.remoteCommand, Option.map_some, Host.eventCommand, hkind, hevent,
      htext, hat, hlevel, Moment.command]

end Host

/-! ## What the relay sends -/

/-- The host knows the sources of the helper, and the relay has the same names for them. -/
theorem source_agent {raw : String} (h : normalizeVendorHookSource raw = some source) :
    parseSource source = .ok (Host.parseIpcSource (Relay.normalizeSource source)) := by
  have hknown : ∀ s ∈ ["cursor", "claudeCode", "codex", "gemini", "qwen", "antigravityCli",
      "copilotCli", "generic"],
      parseSource s = .ok (Host.parseIpcSource (Relay.normalizeSource s)) := by
    decide
  refine hknown source ?_
  unfold normalizeVendorHookSource at h
  split at h <;> cases h <;> decide

theorem source_of_parseHookMode {args : List String}
    (h : parseHookMode args = .ok (.vendor source vendorEvent)) :
    ∃ raw, normalizeVendorHookSource raw = some source := by
  obtain ⟨flags, -, h⟩ := bind_eq_ok.1 h
  cases hraw : flags.source with
  | none =>
    rw [hraw] at h
    cases h
  | some raw =>
    rw [hraw] at h
    dsimp only at h
    cases hsource : normalizeVendorHookSource raw with
    | none =>
      rw [hsource] at h
      cases h
    | some known =>
      rw [hsource] at h
      dsimp only at h
      cases hevent : flags.vendorEvent with
      | none =>
        rw [hevent] at h
        cases h
      | some name =>
        rw [hevent] at h
        cases h
        exact ⟨raw, hsource⟩

theorem parseAttention_relayView (payload : IngestPayload) :
    Relay.parseAttention (relayView payload) = parseAttention payload := by
  rfl

/-- What the relay makes of a payload, if it is forwarded. -/
theorem normalizeHookPayload_eq {hook : Relay.RelayHookPayload} {event : Relay.RelayPayload}
    (h : Relay.normalizeHookPayload hook now = .ok (some event)) {id : String}
    {kind : SessionEventKind} (hid : Relay.resolveSessionId hook = .ok id)
    (hkind : Relay.parseEventKind (RustText.asciiLowercase hook.event) = .ok kind) :
    event = .sessionEvent id (Relay.normalizeSource hook.source)
      ((hook.summary.filter fun value => !value.isEmpty).getD (Relay.defaultSummary kind))
      (hook.occurredAtMs.getD now) (some kind)
      (hook.toolName.filter fun value => !value.isEmpty) (Relay.parseAttention hook) := by
  unfold Relay.normalizeHookPayload at h
  obtain ⟨-, -, h⟩ := bind_eq_ok.1 h
  dsimp only at h
  split_ifs at h with hremoves hforwardable
  · cases h
  · cases h
  · rw [hid, hkind] at h
    dsimp only [Bind.bind, Except.bind] at h
    split_ifs at h
    exact (Option.some.inj (Except.ok.inj h)).symm

section Relay

variable {agent : AgentSource} {summary : String}

/-- The attention of a moment is known to the relay. -/
theorem validate_carries (h : Carries source externalSessionId moment payload)
    (hvalid : validateIngestPayload payload = .ok ()) :
    Relay.validateHookPayload (relayView payload) = .ok () := by
  refine (validate_relayView_iff (checked_of_validate hvalid)).2 fun v hv => ?_
  rw [h.attention] at hv
  cases moment with
  | asks kind =>
    cases hv
    cases kind <;> decide
  | started | ended | turnStarted | turnCompleted | usesTool | other => cases hv

/-- How the relay decodes what was spooled. -/
theorem decode_spooled {requestId : String} {read : String → Option Json}
    (hid : validateRequestId requestId = .ok ()) (hvalid : validateIngestPayload payload = .ok ())
    (hread : read (relayMessage requestId payload).toJson.text =
      some (relayMessage requestId payload).toJson)
    (hview : Relay.validateHookPayload (relayView payload) = .ok ()) :
    ∃ frame, spoolRelayPayloadIn requestId payload = .ok frame ∧
      Relay.decodeFrame (Relay.parseFrame read) frame =
        match Relay.classifyHookPayload (relayView payload) with
        | .forward => .ok (some (.forwardable (relayView payload)))
        | .ignore => .ok (some .ignored)
        | .reject error => .error error := by
  have htravels := relayMessage_travels hid (checked_of_validate hvalid)
  refine ⟨frameOf (relayMessage requestId payload), encode_of_travels htravels, ?_⟩
  unfold Relay.decodeFrame
  rw [decode_relayMessage hread htravels, hview]
  rfl

/-- A turn of the agent stays on the remote machine. -/
theorem classify_turn (h : Carries source externalSessionId moment payload)
    (hview : Relay.validateHookPayload (relayView payload) = .ok ())
    (hturn : moment.isTurn = true) :
    Relay.classifyHookPayload (relayView payload) = .ignore := by
  have hevent : (relayView payload).event = "update" := by
    cases moment with
    | turnStarted | turnCompleted => exact h.event
    | started | ended | asks kind | usesTool | other => cases hturn
  unfold Relay.classifyHookPayload
  rw [hview, hevent]
  exact (if_neg (by decide)).trans (if_neg (by decide))

/-- The kind of the event that a relay sends. -/
def Moment.kind : Moment → SessionEventKind
  | asks _ => .attention
  | usesTool => .tool
  | _ => .lifecycle

theorem event_forwardable (moment : Moment) (hturn : moment.isTurn = false) :
    Relay.isForwardableEvent (RustText.asciiLowercase moment.event) = true ∧
      Relay.parseEventKind (RustText.asciiLowercase moment.event) = .ok moment.kind := by
  have hevents : ∀ e ∈ [("sessionStart", SessionEventKind.lifecycle), ("sessionEnd", .lifecycle),
      ("attention", .attention), ("tool", .tool), ("lifecycle", .lifecycle)],
      Relay.isForwardableEvent (RustText.asciiLowercase e.1) = true ∧
        Relay.parseEventKind (RustText.asciiLowercase e.1) = .ok e.2 := by
    decide
  refine hevents (moment.event, moment.kind) ?_
  cases moment with
  | turnStarted | turnCompleted => cases hturn
  | started | ended | asks kind | usesTool | other => simp [Moment.event, Moment.kind]

theorem filter_nonempty {max : ℕ} {text : Option String}
    (h : ∀ v, text = some v → 0 < size v ∧ size v ≤ max) :
    (text.filter fun value => !value.isEmpty) = text := by
  cases text with
  | none => rfl
  | some v => exact Option.filter_some_pos ((not_isEmpty_iff v).2 (h v rfl).1)

/-- What the relay sends of any other moment is, for the host that reads it, the moment. -/
theorem forwarded_of_carries (clock : Int64)
    (h : Carries source externalSessionId moment payload)
    (hvalid : validateIngestPayload payload = .ok ())
    (hagent : Host.parseIpcSource (Relay.normalizeSource source) = agent)
    (hsummary : payload.summary = some summary) (hturn : moment.isTurn = false) :
    Relay.classifyHookPayload (relayView payload) = .forward ∧
      ∃ event, Relay.normalizeHookPayload (relayView payload) clock = .ok (some event) ∧
        ∀ hostId sequence, ∃ relayed,
          Host.extractRelaySessionEvent hostId ⟨sequence, event⟩ = some relayed ∧
          Host.parseIpcSource relayed.source = agent ∧
          relayed.command agent = moment.command agent externalSessionId summary payload.toolName
            (occurredAt payload clock.toInt) := by
  have hchecked := checked_of_validate hvalid
  have hview := validate_carries h hvalid
  obtain ⟨hforwardable, hkind⟩ := event_forwardable moment hturn
  rw [← h.event] at hforwardable hkind
  have hnamed := (any_session_iff hchecked).2 (Or.inl (by rw [h.externalSessionId]; rfl))
  have hforwards : Relay.Forwards (relayView payload) := ⟨hforwardable, hnamed⟩
  have hid : Relay.resolveSessionId (relayView payload) = .ok externalSessionId := by
    have hpos := (not_isEmpty_iff externalSessionId).2
      (hchecked.externalSessionId externalSessionId h.externalSessionId).1
    simp only [Relay.resolveSessionId, relayView, h.externalSessionId, Option.some_or,
      Option.filter_some, hpos, if_true]
  obtain ⟨event, hnormal, -⟩ := Relay.forward_event hview hforwards clock
  refine ⟨Relay.classify_forward.2 ⟨hview, hforwards⟩, event, hnormal, fun hostId sequence => ?_⟩
  obtain rfl := normalizeHookPayload_eq hnormal hid hkind
  have htool : ((relayView payload).toolName.filter fun value => !value.isEmpty) =
      payload.toolName := filter_nonempty hchecked.toolName
  have htext : (((relayView payload).summary.filter fun value => !value.isEmpty).getD
      (Relay.defaultSummary moment.kind)) = summary := by
    have hkept : ((relayView payload).summary.filter fun value => !value.isEmpty) =
      payload.summary := filter_nonempty hchecked.summary
    rw [hkept, hsummary, Option.getD_some]
  have hat : ((relayView payload).occurredAtMs.getD clock).toInt =
      occurredAt payload clock.toInt := by
    unfold occurredAt relayView
    cases payload.occurredAtMs <;> rfl
  have hsource :
      Host.parseIpcSource (Relay.normalizeSource (relayView payload).source) = agent := by
    rw [← hagent, ← h.source]
    rfl
  rw [htext, htool, parseAttention_relayView, parseAttention_carries h]
  refine ⟨_, rfl, hsource, ?_⟩
  cases moment with
  | turnStarted | turnCompleted => cases hturn
  | started | ended | asks kind | usesTool | other =>
    simp only [Host.RelaySessionEventIngest.command, Moment.kind, Moment.command, hat,
      Host.relayEventLevel]

/-- What reaches the host of a spooled payload : nothing of a turn, and of any other moment an event
that gives the core the command of the host's own ingest. -/
def RelayHears (moment : Moment) (ingest : NormalizedIngest) (summary : String)
    (payload : IngestPayload) (clock : Int64)
    (decoded : Except String (Option Relay.SpoolEvent)) : Prop :=
  if moment.isTurn then decoded = .ok (some .ignored)
  else decoded = .ok (some (.forwardable (relayView payload))) ∧
    ∃ event, Relay.normalizeHookPayload (relayView payload) clock = .ok (some event) ∧
      ∀ hostId sequence, ∃ relayed,
        Host.extractRelaySessionEvent hostId ⟨sequence, event⟩ = some relayed ∧
        ingest.remoteCommand summary =
          some (relayed.command (Host.parseIpcSource relayed.source))

theorem relayHears_of_carries {ingest : NormalizedIngest} {clock : Int64}
    (h : Carries source externalSessionId moment payload)
    (hvalid : validateIngestPayload payload = .ok ())
    (hagent : Host.parseIpcSource (Relay.normalizeSource source) = agent)
    (hsummary : payload.summary = some summary)
    (hcommand : ingest.remoteCommand summary = some (moment.command agent externalSessionId summary
      payload.toolName (occurredAt payload clock.toInt)))
    {requestId : String} {read : String → Option Json} (hid : validateRequestId requestId = .ok ())
    (hread : read (relayMessage requestId payload).toJson.text =
      some (relayMessage requestId payload).toJson) :
    ∃ frame, spoolRelayPayloadIn requestId payload = .ok frame ∧
      RelayHears moment ingest summary payload clock
        (Relay.decodeFrame (Relay.parseFrame read) frame) := by
  have hview := validate_carries h hvalid
  obtain ⟨frame, hframe, hdecoded⟩ := decode_spooled hid hvalid hread hview
  refine ⟨frame, hframe, ?_⟩
  unfold RelayHears
  split_ifs with hturn
  · rw [hdecoded, classify_turn h hview hturn]
  · obtain ⟨hclass, event, hnormal, hevent⟩ := forwarded_of_carries clock h hvalid hagent
      hsummary (Bool.eq_false_of_not_eq_true hturn)
    refine ⟨by rw [hdecoded, hclass], event, hnormal, fun hostId sequence => ?_⟩
    obtain ⟨relayed, hextract, hsource, hrelayed⟩ := hevent hostId sequence
    exact ⟨relayed, hextract, by rw [hcommand, hsource, hrelayed]⟩

end Relay

/-- Every event that the helper reports is heard as what the agent said, of the session that the
document names and of no process : by the host, and, but for the turns of the agent, over a relay,
where the core is given the same command for it. -/
theorem vendor_event_heard {args : List String}
    (hmode : parseHookMode args = .ok (.vendor source vendorEvent))
    (h : runVendorHook fileName nonce now env source vendorEvent value = .ok report)
    (stableId : AgentSource → String → String) (clock : Int64) (uuid : ℕ) :
    ∃ agent externalSessionId summary ingest,
      parseSource source = .ok agent ∧
      firstStr value sessionKeys = some externalSessionId ∧
      report.payload.summary = some summary ∧
      normalizeIngest stableId report.payload clock.toInt uuid = .ok ingest ∧
      ingest.Reports agent externalSessionId (stableId agent externalSessionId) ∧
      (momentOf source vendorEvent value).Tells ingest ∧
      ∀ payload, report = .observed payload → ∀ requestId read,
        validateRequestId requestId = .ok () →
        read (relayMessage requestId payload).toJson.text =
          some (relayMessage requestId payload).toJson →
        ∃ frame, spoolRelayPayloadIn requestId payload = .ok frame ∧
          RelayHears (momentOf source vendorEvent value) ingest summary payload clock
            (Relay.decodeFrame (Relay.parseFrame read) frame) := by
  obtain ⟨raw, hraw⟩ := source_of_parseHookMode hmode
  obtain ⟨externalSessionId, hsession, hcarries, hvalid⟩ := report_carries h
  obtain ⟨summary, hsummary⟩ := Option.isSome_iff_exists.1 hcarries.summary
  obtain ⟨ingest, hnormal, hreports, htells, hcommand⟩ :=
    heard_of_carries hcarries (source_agent hraw) hsummary
  refine ⟨_, externalSessionId, summary, ingest, source_agent hraw, hsession, hsummary, hnormal,
    hreports, htells, ?_⟩
  rintro payload rfl requestId read hid hread
  exact relayHears_of_carries hcarries hvalid rfl hsummary hcommand hid hread

/-- A tool call, as Claude Code describes it. -/
def shellEvent (command : String) : Json :=
  .obj [("cwd", .str "/home/me/notes"), ("session_id", .str "s1"),
    ("tool_input", .obj [("command", .str command)]), ("tool_name", .str "Bash")]

def notesOnly (path : String) : Option String :=
  if path = "/home/me/notes" then some "notes" else none

def noTerminal : CollectorEnv where
  var := fun _ => none
  isWindow := fun _ => false
  discovered := none

def shellPayload : IngestPayload :=
  { emptyPayload "claudeCode" "tool" with
    externalSessionId := some "s1"
    workspaceLabel := some "notes"
    summary := some "Tool activity observed"
    toolName := some "Bash" }

theorem shell_report (command : String) :
    runVendorHook notesOnly Uuid.nil 7 noTerminal "claudeCode" "PostToolUse" (shellEvent command) =
      .ok (.observed shellPayload) := by
  rfl

theorem vendor_event_heard_shell :
    parseHookMode ["--hook-mode", "--source", "Claude-Code", "--vendor-event", "PostToolUse"] =
        .ok (.vendor "claudeCode" "PostToolUse") ∧
      ∃ ingest, normalizeIngest (fun _ id => id) shellPayload 9 0 = .ok ingest ∧
        Moment.usesTool.Tells ingest ∧
        ∃ frame, spoolRelayPayloadIn "r1" shellPayload = .ok frame ∧
          RelayHears .usesTool ingest "Tool activity observed" shellPayload 9
            (Relay.decodeFrame (Relay.parseFrame (readOnly (relayMessage "r1" shellPayload)))
              frame) := by
  have hmode : parseHookMode ["--hook-mode", "--source", "Claude-Code", "--vendor-event",
      "PostToolUse"] = .ok (.vendor "claudeCode" "PostToolUse") := by
    decide
  obtain ⟨agent, session, summary, ingest, -, -, hsummary, hnormal, -, htells, hrelay⟩ :=
    vendor_event_heard hmode (shell_report "make") (fun _ id => id) 9 0
  cases hsummary
  have hmoment : momentOf "claudeCode" "PostToolUse" (shellEvent "make") = .usesTool := rfl
  rw [hmoment] at htells hrelay
  exact ⟨hmode, ingest, hnormal, htells, hrelay shellPayload rfl "r1"
    (readOnly (relayMessage "r1" shellPayload)) (by decide) (if_pos rfl)⟩

end Ipc

end LlmNotch
