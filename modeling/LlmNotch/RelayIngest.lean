import LlmNotch.IngestIsolation
import LlmNotch.RelayHooks

/-!
# Session events of remote hosts

A session event a relay sends is ingested by the desktop host (`ingestRelaySessionEvent`) : the
session is looked up by its source and external identifier, started if there is none, and then
gets the event. Sessions do not record where they come from : the host a relay runs on is part
of the idempotency key of a start, and of the workspace label of the started session.

`relaying_after` : however an event ends, it changed at most the session of its source and
external identifier, and an ended one that was evicted because it started a session in a full
registry. Whose session that is depends on the run (`RelayOrigins`).
-/

namespace LlmNotch

namespace Host

open Ipc

/-! ## Events -/

/-- A session event of a relay, with the host it comes from. -/
structure RelaySessionEventIngest where
  hostId : String
  externalSessionId : String
  source : String
  summary : String
  occurredAtMs : Int64
  kind : Option SessionEventKind
  toolName : Option String
  attention : Option AttentionKind
  deriving DecidableEq

def extractRelaySessionEvent (hostId : String) (frame : Relay.RelayFrame) :
    Option RelaySessionEventIngest :=
  match frame.payload with
  | .sessionEvent sessionId source summary occurredAtMs kind toolName attention =>
    some
      { hostId
        externalSessionId := sessionId
        source
        summary
        occurredAtMs
        kind
        toolName
        attention }
  | _ => none

def parseIpcSource : String → AgentSource
  | "cursor" => .cursor
  | "claudeCode" => .claudeCode
  | "codex" => .codex
  | "gemini" => .gemini
  | "antigravityCli" | "antigravity-cli" | "antigravity" | "agy" => .antigravityCli
  | "copilotCli" | "copilot-cli" | "copilot" => .copilotCli
  | "qwen" | "qwen-cli" | "qwencode" => .qwen
  | "generic" => .generic
  | _ => .unknown

/-- At most `MAX_SESSION_LABEL_LEN` characters, if there are more bytes than that. -/
def truncateForSessionLabel (summary : String) : String :=
  if Json.size summary ≤ maxSessionLabelLen then summary
  else String.ofList (summary.toList.take maxSessionLabelLen)

def relayEventLevel : Option AttentionKind → EventLevel
  | some .error => .error
  | some .permission | some .approval => .warning
  | _ => .info

def RelaySessionEventIngest.startCommand (event : RelaySessionEventIngest)
    (source : AgentSource) : SessionStartCommand where
  idempotencyKey := some ("relay:" ++ event.hostId ++ ":" ++ event.externalSessionId)
  source := source
  externalSessionId := event.externalSessionId
  label := truncateForSessionLabel event.summary
  workspaceLabel := some ("remote:" ++ event.hostId)
  status := .running
  occurredAtMs := event.occurredAtMs.toInt

def RelaySessionEventIngest.command (event : RelaySessionEventIngest) (source : AgentSource) :
    IngestCommand :=
  match event.kind, event.attention with
  | some .attention, some attention => .attention
      { source := source
        externalSessionId := event.externalSessionId
        attention := attention
        level := relayEventLevel event.attention
        summary := event.summary
        occurredAtMs := event.occurredAtMs.toInt }
  | some .tool, _ => .toolEvent
      { source := source
        externalSessionId := event.externalSessionId
        level := relayEventLevel event.attention
        summary := event.summary
        toolName := event.toolName
        occurredAtMs := event.occurredAtMs.toInt }
  | _, _ => .lifecycleEvent
      { source := source
        externalSessionId := event.externalSessionId
        level := relayEventLevel event.attention
        summary := event.summary
        occurredAtMs := event.occurredAtMs.toInt }

section Ingest

variable (cfg : CoreConfig)

/-- Start the session of an event unless the lookup finds one. -/
def startRelaySession (event : RelaySessionEventIngest) (source : AgentSource) : HostM Unit := do
  match ← resolveSession event.externalSessionId source (some event.externalSessionId) with
  | some _ => pure ()
  | none => let _ ← ingestCore cfg (.sessionStart (event.startCommand source))

def ingestRelaySessionEvent (event : RelaySessionEventIngest) : HostM Unit :=
  let source := parseIpcSource event.source
  if source = .unknown then
    reject ("relay session event source `" ++ event.source ++ "` is not recognized")
  else if event.externalSessionId = "" then
    reject "relay session event session id must not be empty"
  else if event.summary = "" then
    reject "relay session event summary must not be empty"
  else do
    startRelaySession cfg event source
    let _ ← ingestCore cfg (event.command source)
    recordConnectorTraffic source event.occurredAtMs.toInt

/-- The state an event ends in, whether it is accepted or not. -/
def afterRelay (event : RelaySessionEventIngest) (h : HostWorld) : HostWorld :=
  match ingestRelaySessionEvent cfg event h with
  | .ok _ h' => h'
  | .error _ h' => h'

end Ingest

/-! ## What an event touches -/

section Isolation

variable {cfg : CoreConfig} {event : RelaySessionEventIngest} {h : HostWorld}

/-- The session an event is about. -/
abbrev RelaySessionEventIngest.Own (event : RelaySessionEventIngest) :
    AgentSource → String → Prop :=
  Exactly (parseIpcSource event.source) event.externalSessionId

/-- The sessions an event may evict. -/
abbrev RelaySessionEventIngest.Evicts (event : RelaySessionEventIngest) (w : World) :
    String → Prop :=
  Host.Evicts w (parseIpcSource event.source) event.externalSessionId

theorem names_command : Names event.Own (event.command (parseIpcSource event.source)) := by
  unfold RelaySessionEventIngest.command
  split <;> exact ⟨rfl, rfl⟩

/-- What holds between the calls of the ingest of an event. -/
abbrev Relaying (h₀ : HostWorld) (event : RelaySessionEventIngest) : HostWorld → Prop :=
  Ingesting event.Own (event.Evicts h₀.world) (fun _ => False) h₀

theorem wp_startRelaySession (hi : Indexed h.world.registry)
    (hown : OwnId cfg h.world (parseIpcSource event.source) event.externalSessionId) :
    wp (startRelaySession cfg event (parseIpcSource event.source)) h
      (fun _ => Relaying h event) (fun _ => Relaying h event) := by
  have hstart : Relaying h event h := Ingesting.start hi
  unfold startRelaySession
  simp only [resolveSession, wp_bind, wp_snapshotSessions, wp_pure]
  split
  · exact hstart.looked
  · rw [wp_bind]
    exact wp_ingestStart (event.startCommand (parseIpcSource event.source)) hstart.looked
      rfl hown fun r h' hh' _ => hh'

theorem wp_ingestRelaySessionEvent (hi : Indexed h.world.registry)
    (hown : OwnId cfg h.world (parseIpcSource event.source) event.externalSessionId) :
    wp (ingestRelaySessionEvent cfg event) h
      (fun _ => Relaying h event) (fun _ => Relaying h event) := by
  have hstart : Relaying h event h := Ingesting.start hi
  unfold ingestRelaySessionEvent
  dsimp only
  split
  · exact hstart
  split
  · exact hstart
  split
  · exact hstart
  rw [wp_bind]
  refine wp_mono (wp_startRelaySession hi hown) (fun _ h' hh' => ?_) fun _ _ hh' => hh'
  exact keeps_bind (keeps_ingestCore names_command)
    (fun _ => keeps_recordConnectorTraffic _ _) _ hh'

/-- However an event ends, it was about the session it names. -/
theorem relaying_after (hi : Indexed h.world.registry)
    (hown : OwnId cfg h.world (parseIpcSource event.source) event.externalSessionId) :
    Relaying h event (afterRelay cfg event h) := by
  have hwp : wp (ingestRelaySessionEvent cfg event) h _ _ := wp_ingestRelaySessionEvent hi hown
  unfold wp at hwp
  unfold afterRelay
  cases hrun : ingestRelaySessionEvent cfg event h with
  | ok a h' =>
    rw [hrun] at hwp
    exact hwp
  | error f h' =>
    rw [hrun] at hwp
    exact hwp

/-- The checks an event passes before a session is looked up. -/
structure RelaySessionEventIngest.Checked (event : RelaySessionEventIngest) : Prop where
  source : parseIpcSource event.source ≠ .unknown
  sessionId : event.externalSessionId ≠ ""
  summary : event.summary ≠ ""

/-- An event that is refused changes nothing. -/
theorem afterRelay_refused (hchecked : ¬ event.Checked) : afterRelay cfg event h = h := by
  have hrefused : ∃ text, ingestRelaySessionEvent cfg event = reject text := by
    unfold ingestRelaySessionEvent
    dsimp only
    split_ifs with hsource hid hsummary
    · exact ⟨_, rfl⟩
    · exact ⟨_, rfl⟩
    · exact ⟨_, rfl⟩
    · exact absurd ⟨hsource, hid, hsummary⟩ hchecked
  obtain ⟨text, htext⟩ := hrefused
  rw [afterRelay, htext]
  rfl

end Isolation

end Host

end LlmNotch
