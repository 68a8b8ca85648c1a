import LlmNotch.IngestIsolation

/-!
# Replies to ingest requests

The arm of `handle_connection` that serves an ingest frame of an authenticated connection. Every
outcome is turned into one reply (`ingestReply`), and the reply is encoded like any message : if
its bounds do not hold, the connection ends without an answer (`Connection.write`).

The texts of the server are short, and so are those of a payload that is not normalized
(`normalizeIngest_error_fits`). A rejection of the host is not cut, so the request is answered
exactly if its text fits into an error frame (`request_answered_iff`).
-/

namespace LlmNotch

namespace Ipc

open Json

/-! ## The server -/

/-- The texts of the transport errors. -/
def IpcError.display : IpcError → String
  | notInitialized => "transport not initialized"
  | frameRejected detail => "frame rejected: " ++ detail
  | authFailed => "authentication failed"
  | rateLimited => "rate limit exceeded"
  | queueFull => "ingest queue full"
  | tooManyClients => "too many clients"
  | peerRejected detail => "peer rejected: " ++ detail
  | readTimeout => "read timed out"
  | descriptorUnavailable => "descriptor unavailable"
  | spoolLimitExceeded => "spool limit exceeded"
  | connectionClosed => "connection closed"
  | invalidConfig detail => "invalid configuration: " ++ detail
  | io detail => detail

def errorCode : IpcError → String
  | .rateLimited => "rate_limited"
  | .queueFull => "queue_full"
  | .frameRejected _ => "invalid_frame"
  | .authFailed => "auth_failed"
  | _ => "internal_error"

/-- What the server hears of a payload it handed to the host. -/
inductive HostOutcome where
  | accepted
  | rejected (message : String)
  | closed
  | timeout
  deriving DecidableEq

/-- What decides about a request besides its payload : the limits of the client, the room in the
queue, the clock and the answer of the host. -/
structure Serving where
  withinRate : Bool := true
  queueRoom : Bool := true
  nowMs : ℤ := 0
  uuid : ℕ := 0
  host : NormalizedIngest → HostOutcome

section

variable (stableId : AgentSource → String → String)

/-- Submit the payload to the host, and wait for the outcome. -/
def processIngest (serving : Serving) (payload : IngestPayload) : Except IpcError HostOutcome := do
  if serving.withinRate then pure () else throw .rateLimited
  let normalized ← normalizeIngest stableId payload serving.nowMs serving.uuid
  if serving.queueRoom then pure (serving.host normalized) else throw .queueFull

def ingestReply (requestId : String) : Except IpcError HostOutcome → WireMessage
  | .ok .accepted => .ack ipcWireVersion requestId
  | .ok (.rejected message) => .error ipcWireVersion requestId "ingest_rejected" message
  | .ok .closed =>
    .error ipcWireVersion requestId "host_unavailable" "host ingest consumer closed"
  | .ok .timeout => .error ipcWireVersion requestId "host_timeout"
      "host did not durably accept ingest before timeout"
  | .error err => .error ipcWireVersion requestId (errorCode err) err.display

/-- An authenticated connection : the replies written, and whether it is still served. -/
structure Connection where
  sent : List WireMessage := []
  serving : Bool := true

/-- `write_frame_async` : a message that is not encoded ends the connection. -/
def Connection.write (c : Connection) (message : WireMessage) : Connection :=
  match encodeMessage message with
  | .ok _ => { c with sent := c.sent ++ [message] }
  | .error _ => { c with serving := false }

/-- Serve one ingest frame. -/
def Connection.ingest (c : Connection) (serving : Serving) (requestId : String)
    (payload : IngestPayload) : Connection :=
  c.write (ingestReply requestId (processIngest stableId serving payload))

end

/-- Exactly one acknowledgement or error for the request, and the connection is served on. -/
def Answered (c c' : Connection) (requestId : String) : Prop :=
  c'.serving = true ∧ ∃ reply, c'.sent = c.sent ++ [reply] ∧
    (reply = .ack ipcWireVersion requestId ∨
      ∃ code message, reply = .error ipcWireVersion requestId code message)

/-! ## Texts -/

theorem utf8Size_upper : ∀ n < 26, (Char.ofNat (65 + n)).utf8Size = 1 ∧
    (Char.ofNat (65 + n + 32)).utf8Size = 1 := by
  decide

theorem utf8Size_toAsciiLowercase (c : Char) :
    (RustText.toAsciiLowercase c).utf8Size = c.utf8Size := by
  unfold RustText.toAsciiLowercase
  split
  · rename_i h
    simp only [Bool.and_eq_true, decide_eq_true_eq] at h
    obtain ⟨hupper, hlower⟩ := utf8Size_upper (c.toNat - 65) (by omega)
    rw [Nat.add_sub_cancel' h.1] at hupper hlower
    rw [Char.ofNat_toNat] at hupper
    rw [hupper, hlower]
  · rfl

theorem size_toAsciiLowercase (text : String) :
    size (RustText.asciiLowercase text) = size text := by
  have hchars : ∀ s : List Char,
      String.utf8Len (s.map RustText.toAsciiLowercase) = String.utf8Len s := by
    intro s
    induction s with
    | nil => rfl
    | cons c s ih =>
      rw [List.map_cons, String.utf8Len_cons, String.utf8Len_cons, ih, utf8Size_toAsciiLowercase]
  rw [RustText.asciiLowercase, size, String.utf8ByteSize_ofList, hchars, String.utf8Len_toList]

/-- A text that quotes a name of at most 32 bytes. -/
theorem size_quoted_le {before name : String} (hbefore : size before ≤ 32)
    (hname : size name ≤ 32) : size (before ++ name ++ "`") ≤ 65 := by
  have hquote : size "`" = 1 := by decide
  simp only [size, String.utf8ByteSize_append] at hbefore hname hquote ⊢
  omega

section

variable {stableId : AgentSource → String → String} {payload : IngestPayload}

theorem validateIngestPayload_bounds (h : validateIngestPayload payload = .ok ()) :
    size payload.source ≤ 32 ∧ size payload.event ≤ 32 := by
  unfold validateIngestPayload at h
  rw [bind_ok_iff, bind_ok_iff, validateBounded_ok_iff, validateBounded_ok_iff] at h
  exact ⟨h.1.2, h.2.1.2⟩

/-- The text is short enough for an error frame after `frame rejected: `. -/
def FitsRejection (e : IpcError) : Prop :=
  ∃ detail, e = .frameRejected detail ∧ size detail ≤ 65

variable {e : IpcError} {source : AgentSource} {nowMs : ℤ} {serving : Serving}

theorem parseSource_error {value : String} (hvalue : size value ≤ 32)
    (h : parseSource value = .error e) : FitsRejection e := by
  unfold parseSource at h
  split at h
  all_goals first
    | (cases h; done)
    | (cases h
       exact ⟨_, rfl, size_quoted_le (by decide) ((size_toAsciiLowercase value).trans_le hvalue)⟩)

theorem resolveSessionId_error (h : resolveSessionId stableId payload source = .error e) :
    FitsRejection e := by
  unfold resolveSessionId at h
  split at h
  · cases h
  · split at h
    · cases h
    · cases h
      exact ⟨_, rfl, by decide⟩

theorem buildSession_error (h : buildSession stableId payload source nowMs = .error e) :
    FitsRejection e := by
  unfold buildSession at h
  split at h
  · cases h
    exact ⟨_, rfl, by decide⟩
  · cases h

theorem parseEventKind_error {event : String} (hevent : size event ≤ 32)
    (h : parseEventKind event = .error e) : FitsRejection e := by
  unfold parseEventKind at h
  split at h
  all_goals first
    | (cases h; done)
    | (cases h
       exact ⟨_, rfl, size_quoted_le (by decide) hevent⟩)

theorem except_bind_error {α β : Type} {x : Except IpcError α} {f : α → Except IpcError β}
    (h : (x >>= f) = .error e) : x = .error e ∨ ∃ a, x = .ok a ∧ f a = .error e := by
  cases x with
  | error e' =>
    cases h
    exact Or.inl rfl
  | ok a => exact Or.inr ⟨a, rfl, h⟩

theorem buildEvent_error {uuid : ℕ} {event : String} (hevent : size event ≤ 32)
    (h : buildEvent stableId payload source nowMs uuid event = .error e) : FitsRejection e := by
  rcases except_bind_error h with h | ⟨id, -, h⟩
  · exact resolveSessionId_error h
  rcases except_bind_error h with h | ⟨kind, -, h⟩
  · exact parseEventKind_error hevent h
  · cases h

/-- A valid payload that is not normalized is rejected with a short text. -/
theorem normalizeIngest_error_fits {uuid : ℕ} (hvalid : validateIngestPayload payload = .ok ())
    (h : normalizeIngest stableId payload nowMs uuid = .error e) : FitsRejection e := by
  obtain ⟨hsource, hevent⟩ := validateIngestPayload_bounds hvalid
  have hlower : size (RustText.asciiLowercase payload.event) ≤ 32 :=
    (size_toAsciiLowercase _).trans_le hevent
  rcases except_bind_error h with h | ⟨source, -, h⟩
  · exact parseSource_error hsource h
  dsimp only at h
  split at h
  · rcases except_bind_error h with h | ⟨id, -, h⟩
    · exact resolveSessionId_error h
    · cases h
  · rcases except_bind_error h with h | ⟨event, -, h⟩
    · exact buildEvent_error hlower h
    · cases h
  · rcases except_bind_error h with h | ⟨session, -, h⟩
    · exact buildSession_error h
    · cases h
  · rcases except_bind_error h with h | ⟨session, -, h⟩
    · exact buildSession_error h
    · cases h
  · cases h
    exact ⟨_, rfl, size_quoted_le (by decide) hlower⟩

/-! ## Replies -/

theorem FitsRejection.reply (h : FitsRejection e) :
    size e.display ≤ maxErrorMessageLen ∧ 0 < size (errorCode e) ∧
      size (errorCode e) ≤ maxErrorCodeLen := by
  obtain ⟨detail, rfl, hdetail⟩ := h
  have hcode : 0 < size "invalid_frame" ∧ size "invalid_frame" ≤ maxErrorCodeLen := by decide
  have htext : size "frame rejected: " = 16 := by decide
  refine ⟨?_, hcode⟩
  have happend : size ("frame rejected: " ++ detail) = size "frame rejected: " + size detail :=
    String.utf8ByteSize_append
  have hlimit : maxErrorMessageLen = 256 := rfl
  show size ("frame rejected: " ++ detail) ≤ maxErrorMessageLen
  omega

theorem processIngest_error_fits (hvalid : validateIngestPayload payload = .ok ())
    (h : processIngest stableId serving payload = .error e) :
    size e.display ≤ maxErrorMessageLen ∧ 0 < size (errorCode e) ∧
      size (errorCode e) ≤ maxErrorCodeLen := by
  unfold processIngest at h
  cases hrate : serving.withinRate with
  | false =>
    rw [hrate] at h
    cases h
    decide
  | true =>
    rw [hrate] at h
    rcases except_bind_error h with h | ⟨n, -, h⟩
    · exact (normalizeIngest_error_fits hvalid h).reply
    · cases hroom : serving.queueRoom with
      | false =>
        rw [hroom] at h
        cases h
        decide
      | true =>
        rw [hroom] at h
        cases h

/-- A reply other than a rejection by the host fits into its frame. -/
theorem travels_ingestReply {v : UInt16} {requestId : String}
    (hvalid : validateWireMessage (.ingest v requestId payload) = .ok ()) :
    Travels (ingestReply requestId (processIngest stableId serving payload)) ↔
      ∀ message, processIngest stableId serving payload = .ok (.rejected message) →
        size message ≤ maxErrorMessageLen := by
  obtain ⟨hid, -, hpayload⟩ := validateWireMessage_ok_iff.1 hvalid
  have hfits : ∀ code message, 0 < size code → size code ≤ maxErrorCodeLen →
      (Travels (.error ipcWireVersion requestId code message) ↔
        size message ≤ maxErrorMessageLen) := by
    intro code message hpos hcode
    rw [encode_error_iff, validateWireMessage_ok_iff]
    exact ⟨fun h => h.2.2.2, fun h => ⟨hid, rfl, ⟨hpos, hcode⟩, h⟩⟩
  cases hprocess : processIngest stableId serving payload with
  | error e =>
    obtain ⟨htext, hpos, hcode⟩ := processIngest_error_fits hpayload hprocess
    refine ⟨fun _ message h => (by cases h), fun _ => ?_⟩
    exact (hfits _ _ hpos hcode).2 htext
  | ok outcome =>
    cases outcome with
    | accepted =>
      refine ⟨fun _ message h => (by cases h), fun _ => ?_⟩
      exact encode_ack_iff.2 (validateWireMessage_ok_iff.2 ⟨hid, rfl, trivial⟩)
    | rejected message =>
      rw [ingestReply, hfits _ _ (by decide) (by decide)]
      refine ⟨fun h message' hm => ?_, fun h => h message rfl⟩
      obtain rfl := HostOutcome.rejected.inj (Except.ok.inj hm)
      exact h
    | closed =>
      refine ⟨fun _ message h => (by cases h), fun _ => ?_⟩
      exact (hfits _ _ (by decide) (by decide)).2 (by decide)
    | timeout =>
      refine ⟨fun _ message h => (by cases h), fun _ => ?_⟩
      exact (hfits _ _ (by decide) (by decide)).2 (by decide)

theorem ingestReply_cases (requestId : String) (result : Except IpcError HostOutcome) :
    ingestReply requestId result = .ack ipcWireVersion requestId ∨
      ∃ code message, ingestReply requestId result =
        .error ipcWireVersion requestId code message := by
  rcases result with e | (_ | message | _ | _)
  · exact Or.inr ⟨_, _, rfl⟩
  · exact Or.inl rfl
  · exact Or.inr ⟨_, _, rfl⟩
  · exact Or.inr ⟨_, _, rfl⟩
  · exact Or.inr ⟨_, _, rfl⟩

/-- A written reply is an answer, and a reply that is not written ends the connection. -/
theorem answered_write_iff {c : Connection} {requestId : String}
    {result : Except IpcError HostOutcome} (hc : c.serving = true) :
    Answered c (c.write (ingestReply requestId result)) requestId ↔
      Travels (ingestReply requestId result) := by
  unfold Answered Connection.write Travels
  cases hencode : encodeMessage (ingestReply requestId result) with
  | ok frame =>
    refine ⟨fun _ => ⟨frame, rfl⟩, fun _ => ⟨hc, _, rfl, ?_⟩⟩
    exact ingestReply_cases requestId result
  | error e =>
    refine ⟨fun h => ?_, fun ⟨frame, h⟩ => (by cases h)⟩
    cases h.1

theorem processIngest_rejected_iff {message : String} :
    processIngest stableId serving payload = .ok (.rejected message) ↔
      serving.withinRate = true ∧ serving.queueRoom = true ∧
        ∃ n, normalizeIngest stableId payload serving.nowMs serving.uuid = .ok n ∧
          serving.host n = .rejected message := by
  unfold processIngest
  cases serving.withinRate with
  | false => exact ⟨fun h => (by cases h), fun h => (by cases h.1)⟩
  | true =>
    cases hn : normalizeIngest stableId payload serving.nowMs serving.uuid with
    | error e => exact ⟨fun h => (by cases h), fun ⟨_, _, n, h, _⟩ => (by cases h)⟩
    | ok n =>
      cases serving.queueRoom with
      | false => exact ⟨fun h => (by cases h), fun h => (by cases h.2.1)⟩
      | true =>
        refine ⟨fun h => ⟨rfl, rfl, n, rfl, Except.ok.inj h⟩, ?_⟩
        rintro ⟨-, -, n', hn', hhost⟩
        cases hn'
        exact congrArg Except.ok hhost

end

/-- A valid request is answered exactly if no rejection of the host is longer than the text of
an error frame. -/
theorem request_answered_iff {stableId : AgentSource → String → String} {c : Connection}
    {v : UInt16} {requestId : String} {payload : IngestPayload} {serving : Serving}
    (hc : c.serving = true)
    (hvalid : validateWireMessage (.ingest v requestId payload) = .ok ()) :
    Answered c (c.ingest stableId serving requestId payload) requestId ↔
      (serving.withinRate = true → serving.queueRoom = true → ∀ n message,
        normalizeIngest stableId payload serving.nowMs serving.uuid = .ok n →
          serving.host n = .rejected message → size message ≤ maxErrorMessageLen) := by
  rw [Connection.ingest, answered_write_iff hc, travels_ingestReply hvalid]
  refine ⟨fun h hrate hroom n message hn hhost => ?_, fun h message hprocess => ?_⟩
  · exact h message (processIngest_rejected_iff.2 ⟨hrate, hroom, n, hn, hhost⟩)
  · obtain ⟨hrate, hroom, n, hn, hhost⟩ := processIngest_rejected_iff.1 hprocess
    exact h hrate hroom n message hn hhost

/-! ## The host behind the server -/

/-- What the server hears from the host; a panic of the task is reported with the text of the
runtime. -/
def hostOutcome (cfg : CoreConfig) (joinError : String → String) (h : Host.HostWorld)
    (n : NormalizedIngest) : HostOutcome :=
  match Host.ingestNormalized cfg n h with
  | .ok _ _ => .accepted
  | .error (.rejected text) _ => .rejected text
  | .error (.panic message) _ =>
    .rejected ("normalized ingest task failed: " ++ joinError message)

/-- A configuration whose identifiers are short. -/
def shortIdConfig : CoreConfig where
  sessionIdFor source externalSessionId := source.debug ++ (size externalSessionId).repr
  reloadMetric := some

/-- An external identifier of the greatest length. -/
def longId : String := String.ofList (List.replicate 256 'a')

/-- A session with the long identifier starts. -/
def longRun : List CoreAct :=
  CoreAct.perform 0 (.ingest (.sessionStart (sampleStart .generic longId))) {}

/-- A tool event of another source that names the identifier of the session. -/
def longPayload : IngestPayload :=
  Host.samplePayload "qwen" "tool" (some "Generic256") none

/-- An event the host accepts is answered. -/
theorem request_answered_accepted :
    validateWireMessage (.ingest ipcWireVersion "r" longPayload) = .ok () ∧
      Answered {} (Connection.ingest externalKey {} ⟨true, true, 0, 0, fun _ => .accepted⟩ "r"
        longPayload) "r" := by
  have hvalid : validateWireMessage (.ingest ipcWireVersion "r" longPayload) = .ok () := by
    decide
  refine ⟨hvalid, (request_answered_iff rfl hvalid).2 ?_⟩
  intro _ _ n message _ hhost
  cases hhost

/-- What the payload becomes. -/
def longEvent : NormalizedIngest :=
  .sessionEvent ⟨0, "Generic256", 0, 0, .tool, .info, "Tool activity", none⟩ .qwen none none

/-- The rejection of the event quotes the long identifier, and the request is not answered. -/
theorem request_unanswered : ∃ s₀ s,
    startCore shortIdConfig {} sampleSettings { integrations := sampleIntegrations } = some s₀ ∧
    run (coreStep shortIdConfig) s₀ longRun = some s ∧
    validateWireMessage (.ingest ipcWireVersion "r" longPayload) = .ok () ∧
    ∀ joinError, ¬ Answered {} (Connection.ingest externalKey {}
      ⟨true, true, 0, 0, hostOutcome shortIdConfig joinError (Host.sampleHost s.world)⟩ "r"
        longPayload) "r" := by
  have heval : ((startCore shortIdConfig {} sampleSettings
      { integrations := sampleIntegrations }).bind fun s₀ =>
        (run (coreStep shortIdConfig) s₀ longRun).map fun s =>
          match Host.ingestNormalized shortIdConfig longEvent (Host.sampleHost s.world) with
          | .error (.rejected text) _ => some text
          | _ => none) = some (some ("session not found: Qwen:" ++ longId)) := by
    decide +kernel
  have hvalid : validateWireMessage (.ingest ipcWireVersion "r" longPayload) = .ok () := by
    decide
  have hnormalized : normalizeIngest externalKey longPayload 0 0 = .ok longEvent := by
    decide
  have hlong : ¬ size ("session not found: Qwen:" ++ longId) ≤ maxErrorMessageLen := by
    decide +kernel
  obtain ⟨s₀, hs₀, heval⟩ := Option.bind_eq_some_iff.1 heval
  obtain ⟨s, hs, htext⟩ := Option.map_eq_some_iff.1 heval
  refine ⟨s₀, s, hs₀, hs, hvalid, fun joinError hanswered => hlong ?_⟩
  rw [Connection.ingest, answered_write_iff rfl, travels_ingestReply hvalid] at hanswered
  refine hanswered _ (processIngest_rejected_iff.2 ⟨rfl, rfl, longEvent, hnormalized, ?_⟩)
  split at htext
  · rename_i text h' hingest
    cases htext
    simp only [hostOutcome, hingest]
  · cases htext

end Ipc

end LlmNotch
