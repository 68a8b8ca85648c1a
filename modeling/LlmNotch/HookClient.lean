import LlmNotch.FrameReader

/-!
# The client of the hook helper

What the helper makes of the answers of the host. A read of a frame has a timeout of its own,
and the wait for a decision has another around it; nested timeouts end at the earlier one.

`reply_heard_iff` : a reply to a decision wait is heard exactly if it comes before the timeout
of a single read, although the helper means to wait for the whole decision window.
-/

namespace LlmNotch

namespace Ipc

/-! ## Timeouts -/

section Timeout

variable {α : Type}

/-- Wait for a future that is ready at a time, or never. The result has the time it is known. -/
def timeout (limitMs : ℕ) : Option (ℕ × α) → ℕ × Option α
  | some (readyMs, value) => if readyMs < limitMs then (readyMs, some value) else (limitMs, none)
  | none => (limitMs, none)

theorem timeout_of_lt {limitMs readyMs : ℕ} (h : readyMs < limitMs) (value : α) :
    timeout limitMs (some (readyMs, value)) = (readyMs, some value) :=
  if_pos h

theorem timeout_of_le {limitMs readyMs : ℕ} (h : limitMs ≤ readyMs) (value : α) :
    timeout limitMs (some (readyMs, value)) = (limitMs, none) :=
  if_neg (Nat.not_lt.2 h)

end Timeout

def ackWaitMs : ℕ := 2000

/-- Read one frame. The argument is what `read_frame_inner` makes of the bytes, and when. -/
def readFrameAsync (frame : Option (ℕ × Except IpcError WireMessage)) :
    ℕ × Except IpcError WireMessage :=
  match timeout readTimeoutMs frame with
  | (atMs, some result) => (atMs, result)
  | (atMs, none) => (atMs, .error .readTimeout)

/-- Read one frame inside another timeout. -/
def readFrameWithin (limitMs : ℕ) (frame : Option (ℕ × Except IpcError WireMessage)) :
    Except IpcError WireMessage :=
  match timeout limitMs (some (readFrameAsync frame)) with
  | (_, some result) => result
  | (_, none) => .error .readTimeout

/-! ## Answers -/

/-- What an answer means to the sender of an event. -/
def ackResult (requestId : String) : WireMessage → Except IpcError Unit
  | .ack _ id => if id = requestId then .ok () else .error (.frameRejected "unexpected response")
  | .error _ _ code message =>
    if code = "auth_failed" ∨ code = "auth_required" then .error .authFailed
    else if code = "queue_full" then .error .queueFull
    else if code = "rate_limited" then .error .rateLimited
    else if code = "host_timeout" ∨ code = "host_unavailable" then .error .readTimeout
    else .error (.frameRejected message)
  | _ => .error (.frameRejected "unexpected response")

def waitForAck (requestId : String) (frame : Option (ℕ × Except IpcError WireMessage)) :
    Except IpcError Unit :=
  match readFrameWithin ackWaitMs frame with
  | .ok response => ackResult requestId response
  | .error e => .error e

/-- What an answer means to a decision wait. -/
def decisionResult (nonce : String) : WireMessage → Except IpcError String
  | .decisionReply _ requestId stdoutJson _ =>
    if requestId = nonce then .ok stdoutJson else .ok decisionHookNeutralOutput
  | .error _ _ code message =>
    if code = "decision_expired" ∨ code = "host_timeout" then .ok decisionHookNeutralOutput
    else if code = "auth_failed" ∨ code = "auth_required" then .error .authFailed
    else .error (.frameRejected message)
  | _ => .ok decisionHookNeutralOutput

/-- The wait of `request_decision` once its frame is written. -/
def requestDecision (nonce : String) (frame : Option (ℕ × Except IpcError WireMessage)) :
    Except IpcError String :=
  match readFrameWithin decisionFailOpenTimeoutMs frame with
  | .ok response => decisionResult nonce response
  | .error e => .error e

/-- What the helper prints. -/
def interactiveOutput (nonce : String) (frame : Option (ℕ × Except IpcError WireMessage)) :
    String :=
  (requestDecision nonce frame).toOption.getD decisionHookNeutralOutput

/-! ## The window of a reply -/

/-- The earlier of two nested timeouts decides. -/
theorem readFrameWithin_eq (limitMs readyMs : ℕ) (result : Except IpcError WireMessage) :
    readFrameWithin limitMs (some (readyMs, result)) =
      if readyMs < min readTimeoutMs limitMs then result else .error .readTimeout := by
  unfold readFrameWithin readFrameAsync
  by_cases hread : readyMs < readTimeoutMs
  · rw [timeout_of_lt hread]
    simp only
    by_cases hlimit : readyMs < limitMs
    · rw [timeout_of_lt hlimit, if_pos (lt_min hread hlimit)]
    · rw [timeout_of_le (Nat.not_lt.1 hlimit), if_neg fun h => hlimit (lt_min_iff.1 h).2]
  · rw [timeout_of_le (Nat.not_lt.1 hread), if_neg fun h => hread (lt_min_iff.1 h).1]
    simp only
    by_cases hlimit : readTimeoutMs < limitMs
    · rw [timeout_of_lt hlimit]
    · rw [timeout_of_le (Nat.not_lt.1 hlimit)]

/-- A reply inside the decision window is heard exactly if it comes before a read times out. -/
theorem reply_heard_iff {parse : List UInt8 → Except String WireMessage} {v : UInt16}
    {nonce stdoutJson deliveryState : String} {d : ℕ} (hd : d < decisionFailOpenTimeoutMs)
    (hreply : Travels (.decisionReply v nonce stdoutJson deliveryState))
    (hparse : parse (WireMessage.decisionReply v nonce stdoutJson deliveryState).body =
      .ok (.decisionReply v nonce stdoutJson deliveryState)) :
    requestDecision nonce (some (d, decodeFrameBytes parse
      (frameOf (.decisionReply v nonce stdoutJson deliveryState)))) = .ok stdoutJson ↔
        d < readTimeoutMs := by
  rw [decode_frameOf hreply hparse, requestDecision, readFrameWithin_eq]
  have hmin : d < min readTimeoutMs decisionFailOpenTimeoutMs ↔ d < readTimeoutMs := by
    rw [lt_min_iff]
    exact and_iff_left hd
  by_cases hread : d < readTimeoutMs
  · rw [if_pos (hmin.2 hread)]
    simp [decisionResult, hread]
  · rw [if_neg fun h => hread (hmin.1 h)]
    simp [hread]

/-- The answer to a permission request. -/
def sampleReply : WireMessage :=
  .decisionReply ipcWireVersion "n1" "\x7b\"allow\":true\x7d" "pending"

/-- The frame of the answer, at a time. -/
def sampleFrame (d : ℕ) : Option (ℕ × Except IpcError WireMessage) :=
  some (d, decodeFrameBytes (fun body =>
    if body = sampleReply.body then .ok sampleReply else .error "invalid JSON") (frameOf sampleReply))

theorem sampleReply_travels : Travels sampleReply :=
  encode_reply_iff.2 (by decide)

/-- An answer after a second is heard. -/
theorem reply_heard_second :
    requestDecision "n1" (sampleFrame 1000) = .ok "\x7b\"allow\":true\x7d" :=
  (reply_heard_iff (by decide) sampleReply_travels (if_pos rfl)).2 (by decide)

/-- An answer after five seconds is not, and the helper prints the neutral output. -/
theorem reply_unheard : Travels sampleReply ∧ 5000 < decisionFailOpenTimeoutMs ∧
    requestDecision "n1" (sampleFrame 5000) = .error .readTimeout ∧
    interactiveOutput "n1" (sampleFrame 5000) = decisionHookNeutralOutput := by
  have hlate : requestDecision "n1" (sampleFrame 5000) = .error .readTimeout := by
    rw [requestDecision, sampleFrame, readFrameWithin_eq, if_neg (by decide)]
  refine ⟨sampleReply_travels, by decide, hlate, ?_⟩
  rw [interactiveOutput, hlate]
  rfl

/-! ## Failed deliveries -/

/-- Errors after which the helper keeps the event. -/
def isTransientDeliveryError : IpcError → Bool
  | .notInitialized | .authFailed | .readTimeout | .descriptorUnavailable | .queueFull
  | .connectionClosed | .io _ => true
  | _ => false

end Ipc

end LlmNotch
