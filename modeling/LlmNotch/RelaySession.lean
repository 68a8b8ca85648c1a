import LlmNotch.RelayHooks
import LlmNotch.Transition

/-!
# The relay session of a host

`RelaySession` holds the connection to the relay of one host, with the cursor to resume from and
a counter of reconnects. What the transport does in a call (whether the process is alive, what is
read from it, which write fails, what a connect gives) is an argument of the call; the checks of
`connect`, `receive` and `acknowledge` are made on it.

`SessionRun.exec` makes one call and notes the frames that were returned and the connects that were
tried. `sequences_increase` : over all calls the returned sequence numbers increase, the cursor is
the last of them, and `tickReconnect` gives up after `maxAttempts` connects since the last
successful one or the last `stop`. `state_honest_iff` : the state is `streaming` exactly while a
connection is held, if no `stop` fails to close one.
-/

namespace LlmNotch

namespace Relay

open Json (size)

/-! ## Hosts, policies and the hello -/

inductive SshHostKeyPolicy where
  | strict | acceptNew
  deriving DecidableEq

structure RemoteHostConfig where
  id : String
  destination : String
  port : Option ℕ
  identityFile : Option String
  knownHostsFile : Option String
  hostKeyPolicy : SshHostKeyPolicy
  connectTimeoutSeconds : ℕ
  deriving DecidableEq

structure ReconnectPolicy where
  baseDelayMs : ℕ
  maxDelayMs : ℕ
  maxAttempts : UInt16
  deriving DecidableEq

def ReconnectPolicy.default : ReconnectPolicy where
  baseDelayMs := 500
  maxDelayMs := 30000
  maxAttempts := 12

def ReconnectPolicy.delayMs (policy : ReconnectPolicy) (attempt : ℕ) (jitterBasisPoints : ℤ) :
    Option ℕ :=
  if policy.maxAttempts.toNat ≤ attempt then none
  else
    let raw := min (min (policy.baseDelayMs * 2 ^ min attempt 20) (2 ^ 64 - 1)) policy.maxDelayMs
    let jitter := max (-2500) (min 2500 jitterBasisPoints)
    let adjusted := (raw : ℤ) * (10000 + jitter) / 10000
    -- the cast to u64 wraps before the delay is capped again
    some (min ((max adjusted 0).toNat % 2 ^ 64) policy.maxDelayMs)

inductive ConnectionState where
  | disconnected
  | connecting
  | authenticating
  | streaming
  | backoff (attempt delayMs : ℕ)
  | failed
  deriving DecidableEq

def protocolVersion : ℕ := 1

structure RelayHello where
  protocolVersion : ℕ
  hostId : String
  connectionNonce : String
  resume : ℕ
  deriving DecidableEq

def isHexDigit (c : Char) : Bool :=
  c.isDigit || ('a' ≤ c && c ≤ 'f') || ('A' ≤ c && c ≤ 'F')

def RelayHello.validate (hello : RelayHello) : Except ProtocolError Unit :=
  if hello.protocolVersion ≠ Relay.protocolVersion then .error .incompatibleVersion
  else if outOfBounds 64 hello.hostId || size hello.connectionNonce != 64 ||
      !hello.connectionNonce.toList.all isHexDigit then
    .error .invalidField
  else .ok ()

/-! ## Connections -/

inductive TransportError where
  | sshUnavailable
  | hostVerificationFailed
  | authenticationFailed
  | protocol (detail : String)
  | disconnected
  | process (detail : String)
  deriving DecidableEq

/-- `closed` : the connection has seen the end of the relay's output. -/
structure Connection where
  hello : RelayHello
  cursor : ℕ
  closed : Bool
  deriving DecidableEq

/-- `connect`, where `outcome` is the first line of the relay, or why there is none. -/
def connect (host : RemoteHostConfig) (resume : ℕ) (outcome : Except TransportError RelayHello) :
    Except TransportError Connection :=
  match outcome with
  | .error error => .error error
  | .ok hello => match hello.validate with
    | .error error => .error (.protocol error.message)
    | .ok _ =>
      if hello.hostId ≠ host.id ∨ hello.resume ≠ resume then
        .error (.protocol "relay hello does not match the requested host or resume cursor")
      else .ok ⟨hello, resume, false⟩

namespace Connection

/-- What `read_json_line` gives is checked against the cursor. -/
def receive (c : Connection) (read : Except TransportError (Option RelayFrame)) :
    Except TransportError (Option RelayFrame) × Connection :=
  match read with
  | .error error => (.error error, c)
  | .ok none => (.ok none, { c with closed := true })
  | .ok (some frame) => match frame.validateAfter c.cursor with
    | .error error => (.error (.protocol error.message), c)
    | .ok _ => (.ok (some frame), { c with cursor := frame.sequence })

/-- `fault` is the error of the write. -/
def acknowledge (c : Connection) (last : ℕ) (fault : Option TransportError) :
    Except TransportError Unit :=
  if c.cursor < last then .error (.protocol "cannot acknowledge an unreceived sequence")
  else match fault with
    | some error => .error error
    | none => .ok ()

def injectHook (_ : Connection) (payload : RelayHookPayload) (fault : Option TransportError) :
    Except TransportError Unit :=
  match validateHookPayload payload, fault with
  | .error _, _ => .error (.protocol "invalid hook payload")
  | .ok _, some error => .error error
  | .ok _, none => .ok ()

/-- `fault` is the error of asking for the process or of killing it. -/
def close (c : Connection) (fault : Option TransportError) : Except TransportError Unit :=
  match c.closed, fault with
  | true, _ => .ok ()
  | false, some error => .error error
  | false, none => .ok ()

end Connection

/-! ## Sessions -/

inductive RelaySessionError where
  | alreadyActive (hostId : String)
  | notActive (hostId : String)
  | requiresRestart
  | transport (error : TransportError)
  deriving DecidableEq

/-- The connection to a host, its state, and where to resume. -/
structure RelaySession where
  host : RemoteHostConfig
  reconnect : ReconnectPolicy
  connection : Option Connection
  state : ConnectionState
  resume : ℕ
  lastError : Option TransportError
  attempt : ℕ
  deriving DecidableEq

namespace RelaySession

def withResume (host : RemoteHostConfig) (reconnect : ReconnectPolicy) (resume : ℕ) :
    RelaySession where
  host := host
  reconnect := reconnect
  connection := none
  state := .disconnected
  resume := resume
  lastError := none
  attempt := 0

/-- `snapshot` looks whether the process is alive, and drops the connection if not. -/
def snapshot (s : RelaySession) (alive : Except TransportError Bool) : RelaySession :=
  match s.connection, alive with
  | some _, .ok true => s
  | some _, _ => { s with state := .disconnected, connection := none }
  | none, _ => s

def fail (s : RelaySession) (error : TransportError) : RelaySession :=
  { s with
    connection := none
    lastError := some error
    state := if s.reconnect.maxAttempts.toNat ≤ s.attempt then .failed else .disconnected }

/-- `start` calls the transport. -/
def startConnects (s : RelaySession) : Bool :=
  !(s.state = .streaming ∧ s.connection.isSome) && s.state ≠ .failed

def start (s : RelaySession) (outcome : Except TransportError RelayHello) :
    Except RelaySessionError Unit × RelaySession :=
  if s.state = .streaming ∧ s.connection.isSome then (.error (.alreadyActive s.host.id), s)
  else if s.state = .failed then (.error .requiresRestart, s)
  else match connect s.host s.resume outcome with
    | .ok connection =>
      (.ok (), { s with
        connection := some connection
        state := .streaming
        lastError := none
        attempt := 0 })
    | .error error => (.error (.transport error), { s with state := .connecting }.fail error)

def stop (s : RelaySession) (fault : Option TransportError) :
    Except RelaySessionError Unit × RelaySession :=
  let stopped : RelaySession :=
    { s with connection := none, state := .disconnected, attempt := 0, lastError := none }
  match s.connection with
  | none => (.ok (), stopped)
  | some connection => match connection.close fault with
    | .error error => (.error (.transport error), { s with connection := none })
    | .ok _ => (.ok (), stopped)

/-- The connection is given up. -/
def handleDisconnect (s : RelaySession) : RelaySession :=
  { s with connection := none, state := .disconnected }

/-- Read a frame; its sequence number is where to resume. -/
def receive (s : RelaySession) (alive : Except TransportError Bool)
    (read : Except TransportError (Option RelayFrame)) :
    Except RelaySessionError (Option RelayFrame) × RelaySession :=
  match s.connection with
  | none => (.error (.notActive s.host.id), s)
  | some connection => match alive with
    | .error error => (.error (.transport error), s)
    | .ok false => (.ok none, s.handleDisconnect)
    | .ok true => match connection.receive read with
      | (.error error, connection) =>
        (.error (.transport error), { s with connection := some connection })
      | (.ok none, _) => (.ok none, s.handleDisconnect)
      | (.ok (some frame), connection) =>
        (.ok (some frame), { s with
          connection := some connection
          resume := if s.resume < frame.sequence then frame.sequence else s.resume })

def acknowledge (s : RelaySession) (last : ℕ) (fault : Option TransportError) :
    Except RelaySessionError Unit × RelaySession :=
  match s.connection with
  | none => (.error (.notActive s.host.id), s)
  | some connection => match connection.acknowledge last fault with
    | .error error => (.error (.transport error), s)
    | .ok _ => (.ok (), if s.resume < last then { s with resume := last } else s)

def injectHook (s : RelaySession) (payload : RelayHookPayload) (fault : Option TransportError) :
    Except RelaySessionError Unit :=
  match s.connection with
  | none => .error (.notActive s.host.id)
  | some connection => (connection.injectHook payload fault).mapError .transport

/-- The result, the session, and whether the transport was called. -/
def tickReconnect (s : RelaySession) (jitterBasisPoints : ℤ)
    (outcome : Except TransportError RelayHello) :
    Except RelaySessionError Bool × RelaySession × Bool :=
  if s.state = .streaming ∨ s.state = .connecting then (.ok false, s, false)
  else if s.state = .failed then (.error .requiresRestart, s, false)
  else match s.reconnect.delayMs s.attempt jitterBasisPoints with
    | none => (.error .requiresRestart, s, false)
    | some _ =>
      -- the backoff state with the delay is overwritten at once
      let s := { s with state := .connecting, attempt := min (s.attempt + 1) (2 ^ 16 - 1) }
      match connect s.host s.resume outcome with
      | .ok connection =>
        (.ok true, { s with
          connection := some connection
          state := .streaming
          attempt := 0
          lastError := none }, true)
      | .error error => (.error (.transport error), s.fail error, true)

end RelaySession

/-! ## Calls -/

inductive SessionCall where
  | start (outcome : Except TransportError RelayHello)
  | stop (fault : Option TransportError)
  | receive (alive : Except TransportError Bool) (read : Except TransportError (Option RelayFrame))
  | acknowledge (last : ℕ) (fault : Option TransportError)
  | injectHook (payload : RelayHookPayload) (fault : Option TransportError)
  | tickReconnect (jitterBasisPoints : ℤ) (outcome : Except TransportError RelayHello)
  | snapshot (alive : Except TransportError Bool)

/-- A session with the sequence numbers `receive` has returned, and how often `tickReconnect` has
called the transport since the last successful connect, and since that or the last `stop`. -/
structure SessionRun where
  session : RelaySession
  returned : List ℕ
  sinceConnect : ℕ
  sinceReset : ℕ

namespace SessionRun

def initial (session : RelaySession) : SessionRun :=
  ⟨session, [], 0, 0⟩

def exec (r : SessionRun) : SessionCall → SessionRun
  | .start outcome => match r.session.start outcome with
    | (.ok _, session) => ⟨session, r.returned, 0, 0⟩
    | (.error _, session) => { r with session := session }
  | .stop fault => match r.session.stop fault with
    | (.ok _, session) => { r with session := session, sinceReset := 0 }
    | (.error _, session) => { r with session := session }
  | .receive alive read => match r.session.receive alive read with
    | (.ok (some frame), session) =>
      { r with session := session, returned := r.returned ++ [frame.sequence] }
    | (_, session) => { r with session := session }
  | .acknowledge last fault => { r with session := (r.session.acknowledge last fault).2 }
  | .injectHook _ _ => r
  | .tickReconnect jitter outcome => match r.session.tickReconnect jitter outcome with
    | (.ok true, session, _) => ⟨session, r.returned, 0, 0⟩
    | (_, session, true) =>
      { r with
        session := session
        sinceConnect := r.sinceConnect + 1
        sinceReset := r.sinceReset + 1 }
    | (_, session, false) => { r with session := session }
  | .snapshot alive => { r with session := r.session.snapshot alive }

def step (r : SessionRun) (call : SessionCall) : Option SessionRun :=
  some (r.exec call)

/-! ## Cursors and attempts -/

/-- The cursors of the session and of its connection are the last sequence number returned, and
the attempts are those since the last success or stop. -/
structure Tracked (policy : ReconnectPolicy) (first : ℕ) (r : SessionRun) : Prop where
  reconnect : r.session.reconnect = policy
  resume : r.session.resume = r.returned.getLast?.getD first
  increasing : (first :: r.returned).Pairwise (· < ·)
  below : ∀ n ∈ first :: r.returned, n ≤ r.session.resume
  cursor : ∀ c ∈ r.session.connection, c.cursor = r.session.resume
  attempt : r.session.attempt = r.sinceReset
  bound : r.sinceReset ≤ policy.maxAttempts.toNat
  failed : 0 < policy.maxAttempts.toNat → r.sinceReset = policy.maxAttempts.toNat →
    r.session.state = .failed
  idle : r.session.state = .failed → r.session.connection = none

variable {policy : ReconnectPolicy} {first : ℕ} {r : SessionRun}

variable {c : Connection} {read : Except TransportError (Option RelayFrame)}

theorem connect_eq_ok {host : RemoteHostConfig} {resume : ℕ}
    {outcome : Except TransportError RelayHello} (h : connect host resume outcome = .ok c) :
    c.cursor = resume ∧ c.closed = false := by
  unfold connect at h
  split at h
  · cases h
  · split at h
    · cases h
    · split_ifs at h
      cases h
      exact ⟨rfl, rfl⟩

theorem receive_eq_ok {c' : Connection} {frame : RelayFrame}
    (h : c.receive read = (.ok (some frame), c')) :
    c.cursor < frame.sequence ∧ c'.cursor = frame.sequence := by
  unfold Connection.receive at h
  split at h
  · cases h
  · cases h
  · split at h
    · cases h
    · next frame' _ hvalid =>
      cases h
      exact ⟨(validateAfter_ok_iff.1 hvalid).1, rfl⟩

theorem receive_error {c' : Connection} {error : TransportError}
    (h : c.receive read = (.error error, c')) : c' = c := by
  unfold Connection.receive at h
  split at h
  · cases h
    rfl
  · cases h
  · split at h
    · cases h
      rfl
    · cases h

theorem pairwise_snoc {l : List ℕ} {n : ℕ} (h : (first :: l).Pairwise (· < ·))
    (hn : ∀ m ∈ first :: l, m < n) : (first :: (l ++ [n])).Pairwise (· < ·) := by
  rw [← List.cons_append, List.pairwise_append]
  refine ⟨h, List.pairwise_singleton _ _, fun m hm k hk => ?_⟩
  rw [List.mem_singleton.1 hk]
  exact hn m hm

section

variable (h : Tracked policy first r)

include h

theorem Tracked.start (outcome : Except TransportError RelayHello) :
    Tracked policy first (r.exec (.start outcome)) := by
  simp only [exec, RelaySession.start]
  split_ifs with hactive hfailed
  · exact h
  · exact h
  · cases hconnect : connect r.session.host r.session.resume outcome with
    | ok c =>
      refine ⟨h.reconnect, h.resume, h.increasing, h.below, ?_, rfl, Nat.zero_le _, ?_, ?_⟩
      · rintro c' ⟨⟩
        exact (connect_eq_ok hconnect).1
      · intro hpos hzero
        exact absurd hzero hpos.ne
      · rintro ⟨⟩
    | error error =>
      refine ⟨h.reconnect, h.resume, h.increasing, h.below, ?_, h.attempt, h.bound, ?_, fun _ => rfl⟩
      · rintro c' ⟨⟩
      · intro hpos hmax
        exact absurd (h.failed hpos hmax) hfailed

theorem Tracked.stop (fault : Option TransportError) :
    Tracked policy first (r.exec (.stop fault)) := by
  have hstopped : Tracked policy first
      { r with
        session := { r.session with
          connection := none
          state := .disconnected
          attempt := 0
          lastError := none }
        sinceReset := 0 } := by
    refine ⟨h.reconnect, h.resume, h.increasing, h.below, ?_, rfl, Nat.zero_le _, ?_, fun _ => rfl⟩
    · rintro c ⟨⟩
    · intro hpos hzero
      exact absurd hzero hpos.ne
  simp only [exec, RelaySession.stop]
  cases hconnection : r.session.connection with
  | none => exact hstopped
  | some c =>
    cases hclose : c.close fault with
    | ok _ => simpa only [hclose] using hstopped
    | error error =>
      simp only [hclose]
      refine ⟨h.reconnect, h.resume, h.increasing, h.below, ?_, h.attempt, h.bound, h.failed, fun _ => rfl⟩
      rintro c' ⟨⟩

/-- Dropping the connection keeps the cursor and the attempts. -/
theorem Tracked.drop (hc : r.session.connection = some c) :
    Tracked policy first
      { r with session := { r.session with connection := none, state := .disconnected } } := by
  refine ⟨h.reconnect, h.resume, h.increasing, h.below, ?_, h.attempt, h.bound, ?_, fun _ => rfl⟩
  · rintro c' ⟨⟩
  · intro hpos hmax
    rw [h.idle (h.failed hpos hmax)] at hc
    cases hc

theorem Tracked.receive (alive : Except TransportError Bool)
    (read : Except TransportError (Option RelayFrame)) :
    Tracked policy first (r.exec (.receive alive read)) := by
  simp only [exec, RelaySession.receive]
  cases hconnection : r.session.connection with
  | none => exact h
  | some c =>
    have hcursor := h.cursor c hconnection
    cases alive with
    | error error => exact h
    | ok alive =>
      cases alive with
      | false => exact h.drop hconnection
      | true =>
        dsimp only
        cases hread : c.receive read with
        | mk result c' =>
          cases result with
          | error error =>
            obtain rfl := receive_error hread
            refine ⟨h.reconnect, h.resume, h.increasing, h.below, ?_, h.attempt, h.bound, h.failed, ?_⟩
            · rintro c'' ⟨⟩
              exact hcursor
            · intro hfailed
              rw [h.idle hfailed] at hconnection
              cases hconnection
          | ok frame =>
            cases frame with
            | none => exact h.drop hconnection
            | some frame =>
              obtain ⟨hless, hcursor'⟩ := receive_eq_ok hread
              rw [hcursor] at hless
              simp only [if_pos hless]
              refine ⟨h.reconnect, ?_, ?_, ?_, ?_, h.attempt, h.bound, h.failed, ?_⟩
              · simp
              · exact pairwise_snoc h.increasing fun m hm => lt_of_le_of_lt (h.below m hm) hless
              · intro n hn
                rcases List.mem_append.1 (List.cons_append ▸ hn) with hn | hn
                · exact (h.below n hn).trans hless.le
                · exact (List.mem_singleton.1 hn).le
              · rintro c'' ⟨⟩
                exact hcursor'
              · intro hfailed
                rw [h.idle hfailed] at hconnection
                cases hconnection

theorem Tracked.acknowledge (last : ℕ) (fault : Option TransportError) :
    Tracked policy first (r.exec (.acknowledge last fault)) := by
  simp only [exec, RelaySession.acknowledge, Connection.acknowledge]
  cases hconnection : r.session.connection with
  | none => exact h
  | some c =>
    have hcursor := h.cursor c hconnection
    dsimp only
    by_cases hless : c.cursor < last
    · simp only [if_pos hless]
      exact h
    · -- the session's cursor is that of the connection, so it does not move
      have hstays : ¬ r.session.resume < last := hcursor ▸ hless
      simp only [if_neg hless, if_neg hstays]
      cases fault <;> exact h

end

theorem delayMs_eq_none {attempt : ℕ} {jitter : ℤ} :
    policy.delayMs attempt jitter = none ↔ policy.maxAttempts.toNat ≤ attempt := by
  unfold ReconnectPolicy.delayMs
  split_ifs with h <;> simp [h]

theorem Tracked.tickReconnect (h : Tracked policy first r) (jitter : ℤ)
    (outcome : Except TransportError RelayHello) :
    Tracked policy first (r.exec (.tickReconnect jitter outcome)) := by
  simp only [exec, RelaySession.tickReconnect]
  split_ifs with hactive hfailed
  · exact h
  · exact h
  · cases hdelay : r.session.reconnect.delayMs r.session.attempt jitter with
    | none => exact h
    | some delay =>
      have hless : r.session.attempt < policy.maxAttempts.toNat := by
        rw [h.reconnect] at hdelay
        by_contra hle
        rw [delayMs_eq_none.2 (Nat.not_lt.1 hle)] at hdelay
        cases hdelay
      have hsmall := policy.maxAttempts.toNat_lt
      have hnext : min (r.session.attempt + 1) (2 ^ 16 - 1) = r.sinceReset + 1 := by
        rw [h.attempt] at hless ⊢
        omega
      simp only [hnext]
      cases hconnect : connect r.session.host r.session.resume outcome with
      | ok c =>
        refine ⟨h.reconnect, h.resume, h.increasing, h.below, ?_, rfl, Nat.zero_le _, ?_, ?_⟩
        · rintro c' ⟨⟩
          exact (connect_eq_ok hconnect).1
        · intro hpos hzero
          exact absurd hzero hpos.ne
        · rintro ⟨⟩
      | error error =>
        rw [h.attempt] at hless
        refine ⟨h.reconnect, h.resume, h.increasing, h.below, ?_, rfl, hless, ?_, fun _ => rfl⟩
        · rintro c' ⟨⟩
        · intro _ hmax
          have hreached : policy.maxAttempts.toNat ≤ r.sinceReset + 1 := hmax.ge
          simp only [RelaySession.fail, h.reconnect, if_pos hreached]

theorem Tracked.snapshot (h : Tracked policy first r) (alive : Except TransportError Bool) :
    Tracked policy first (r.exec (.snapshot alive)) := by
  simp only [exec, RelaySession.snapshot]
  split
  · exact h
  · next c _ hconnection _ => exact h.drop hconnection
  · exact h

theorem Tracked.exec (h : Tracked policy first r) (call : SessionCall) :
    Tracked policy first (r.exec call) := by
  cases call with
  | start outcome => exact h.start outcome
  | stop fault => exact h.stop fault
  | receive alive read => exact h.receive alive read
  | acknowledge last fault => exact h.acknowledge last fault
  | injectHook payload fault => exact h
  | tickReconnect jitter outcome => exact h.tickReconnect jitter outcome
  | snapshot alive => exact h.snapshot alive

theorem tracked_initial (host : RemoteHostConfig) (policy : ReconnectPolicy) (first : ℕ) :
    Tracked policy first (initial (.withResume host policy first)) := by
  refine ⟨rfl, rfl, List.pairwise_singleton _ _, ?_, ?_, rfl, Nat.zero_le _, ?_, fun _ => rfl⟩
  · intro n hn
    exact (List.mem_singleton.1 hn).le
  · rintro c ⟨⟩
  · intro hpos hzero
    exact absurd hzero hpos.ne

theorem mem_returned_exec {n : ℕ} (h : n ∈ r.returned) (call : SessionCall) :
    n ∈ (r.exec call).returned := by
  cases call with
  | start outcome =>
    simp only [exec]
    split <;> exact h
  | stop fault =>
    simp only [exec]
    split <;> exact h
  | receive alive read =>
    simp only [exec]
    split
    · exact List.mem_append_left _ h
    · exact h
  | tickReconnect jitter outcome =>
    simp only [exec]
    split <;> exact h
  | acknowledge last fault | injectHook payload fault | snapshot alive => exact h

/-- No call moves the cursor back. -/
theorem Tracked.resume_mono (h : Tracked policy first r) (call : SessionCall) :
    r.session.resume ≤ (r.exec call).session.resume := by
  refine (h.exec call).below _ ?_
  rw [h.resume]
  cases hlast : r.returned.getLast? with
  | none => exact List.mem_cons_self
  | some n =>
    exact List.mem_cons_of_mem first (mem_returned_exec (List.mem_of_getLast? hlast) call)

/-- In every run of one session the sequence numbers `receive` returns increase, from the cursor
the session was made with; the cursor is the last of them and never moves back. Since the last
successful connect or `stop`, `tickReconnect` has called the transport at most `maxAttempts` times,
and as often only if the session has failed. -/
theorem sequences_increase (host : RemoteHostConfig) (policy : ReconnectPolicy) (first : ℕ)
    (calls : List SessionCall) (r : SessionRun)
    (hrun : run step (initial (.withResume host policy first)) calls = some r) :
    (first :: r.returned).Pairwise (· < ·) ∧
    r.session.resume = r.returned.getLast?.getD first ∧
    (visited step (initial (.withResume host policy first)) calls).IsChain
      (fun a b => a.session.resume ≤ b.session.resume) ∧
    r.sinceReset ≤ policy.maxAttempts.toNat ∧
    (0 < policy.maxAttempts.toNat → r.sinceReset = policy.maxAttempts.toNat →
      r.session.state = .failed) := by
  have hstep : ∀ s call t, True → Tracked policy first s → step s call = some t →
      Tracked policy first t := by
    rintro s call _ - hs ⟨⟩
    exact hs.exec call
  have hmono : ∀ s call t, True → Tracked policy first s → step s call = some t →
      s.session.resume ≤ t.session.resume := by
    rintro s call _ - hs ⟨⟩
    exact hs.resume_mono call
  have hguard := Guarded.trivial step (initial (.withResume host policy first)) calls
  have hinitial := tracked_initial host policy first
  have hr := Guarded.invariant hstep hinitial hguard hrun
  exact ⟨hr.increasing, hr.resume, hguard.isChain hstep hmono hinitial, hr.bound, hr.failed⟩

def sampleHost : RemoteHostConfig :=
  ⟨"build-1", "builder@example.org", none, none, none, .strict, 10⟩

def sampleHello (resume : ℕ) : RelayHello :=
  ⟨1, "build-1", String.ofList (List.replicate 64 'a'), resume⟩

/-- Two frames are received, the relay dies, and one more frame comes over a new connection. A
frame that was received before is refused. -/
def resumedCalls : List SessionCall :=
  [.start (.ok (sampleHello 0)), .receive (.ok true) (.ok (some ⟨1, .heartbeat⟩)),
    .receive (.ok true) (.ok (some ⟨4, .heartbeat⟩)), .acknowledge 1 none,
    .snapshot (.ok false), .tickReconnect 0 (.error .disconnected),
    .tickReconnect 0 (.ok (sampleHello 4)), .receive (.ok true) (.ok (some ⟨4, .heartbeat⟩)),
    .receive (.ok true) (.ok (some ⟨5, .heartbeat⟩))]

theorem sequences_increase_resumedCalls :
    ∃ r, run step (initial (.withResume sampleHost .default 0)) resumedCalls = some r ∧
      r.returned = [1, 4, 5] ∧ r.session.resume = 5 ∧
      [0, 1, 4, 5].Pairwise (· < ·) := by
  have hrun : ((run step (initial (.withResume sampleHost .default 0)) resumedCalls).map
      returned) = some [1, 4, 5] := by
    decide
  obtain ⟨r, hr, hreturned⟩ := Option.map_eq_some_iff.1 hrun
  obtain ⟨hincreasing, hresume, -⟩ :=
    sequences_increase sampleHost .default 0 resumedCalls r hr
  rw [hreturned] at hincreasing hresume
  exact ⟨r, hr, hreturned, hresume, hincreasing⟩

/-- A reconnect that fails is followed by a stop, thirteen times. -/
def stoppedReconnects : List SessionCall :=
  (List.replicate 13 [.tickReconnect 0 (.error .sshUnavailable), .stop none]).flatten

/-- Every `stop` starts the attempts over : the transport was called thirteen times since the last
successful connect, and the session has never failed. -/
theorem reconnects_past_limit :
    ∃ r, run step (initial (.withResume sampleHost .default 0)) stoppedReconnects = some r ∧
      ReconnectPolicy.default.maxAttempts.toNat < r.sinceConnect ∧
      ∀ u ∈ visited step (initial (.withResume sampleHost .default 0)) stoppedReconnects,
        u.session.state ≠ .failed := by
  have hrun : ((run step (initial (.withResume sampleHost .default 0)) stoppedReconnects).map
      sinceConnect) = some 13 := by
    decide
  obtain ⟨r, hr, hcount⟩ := Option.map_eq_some_iff.1 hrun
  refine ⟨r, hr, ?_, ?_⟩
  · rw [hcount]
    decide
  · have hstates : ∀ state ∈ (visited step (initial (.withResume sampleHost .default 0))
        stoppedReconnects).map fun u => u.session.state, state ≠ .failed := by
      decide
    intro u hu
    exact hstates _ (List.mem_map_of_mem hu)

/-! ## State and connection -/

/-- The state is `streaming` exactly while a connection is held, and no connect is under way. -/
def Honest (r : SessionRun) : Prop :=
  r.session.state ≠ .connecting ∧
    (r.session.state = .streaming ↔ r.session.connection.isSome = true)

/-- The call is no `stop` that fails to close a connection. -/
def ClosesOnStop (r : SessionRun) : SessionCall → Prop
  | .stop fault => ∀ c ∈ r.session.connection, c.close fault = .ok ()
  | _ => True

/-- Sessions that have no connection and know it. -/
theorem honest_of_none {session : RelaySession} {returned : List ℕ} {n m : ℕ}
    (hconnection : session.connection = none)
    (hstate : session.state = .disconnected ∨ session.state = .failed) :
    Honest ⟨session, returned, n, m⟩ := by
  unfold Honest
  rw [hconnection]
  rcases hstate with hstate | hstate <;> simp [hstate]

theorem state_fail (session : RelaySession) (error : TransportError) :
    (session.fail error).state = .disconnected ∨ (session.fail error).state = .failed := by
  unfold RelaySession.fail
  split_ifs
  · exact Or.inr rfl
  · exact Or.inl rfl

/-- After a call that was made in an honest state, the state is honest exactly if the call was no
failed `stop`. -/
theorem Honest.exec_iff (h : Honest r) (call : SessionCall) :
    Honest (r.exec call) ↔ ClosesOnStop r call := by
  cases call with
  | start outcome =>
    refine iff_of_true ?_ trivial
    simp only [exec, RelaySession.start]
    split_ifs
    · exact h
    · exact h
    · cases connect r.session.host r.session.resume outcome with
      | ok c => simp [Honest]
      | error error => exact honest_of_none rfl (state_fail _ error)
  | stop fault =>
    simp only [exec, RelaySession.stop, ClosesOnStop]
    cases hconnection : r.session.connection with
    | none =>
      refine iff_of_true (honest_of_none rfl (Or.inl rfl)) ?_
      rintro c ⟨⟩
    | some c =>
      dsimp only
      cases hclose : c.close fault with
      | ok _ =>
        refine iff_of_true (honest_of_none rfl (Or.inl rfl)) ?_
        rintro c' ⟨⟩
        exact hclose
      | error error =>
        refine iff_of_false (fun hhonest => ?_) fun hcloses => ?_
        · have hstreaming : r.session.state = .streaming := h.2.2 (by rw [hconnection]; rfl)
          cases hhonest.2.1 hstreaming
        · cases hclose.symm.trans (hcloses c rfl)
  | receive alive read =>
    refine iff_of_true ?_ trivial
    simp only [exec, RelaySession.receive]
    cases hconnection : r.session.connection with
    | none => exact h
    | some c =>
      have hstreaming : r.session.state = .streaming := h.2.2 (by rw [hconnection]; rfl)
      cases alive with
      | error error => exact h
      | ok alive =>
        cases alive with
        | false => exact honest_of_none rfl (Or.inl rfl)
        | true =>
          dsimp only
          cases hread : c.receive read with
          | mk result c' =>
            cases result with
            | error error => simp [Honest, hstreaming]
            | ok frame =>
              cases frame with
              | none => exact honest_of_none rfl (Or.inl rfl)
              | some frame => simp [Honest, hstreaming]
  | acknowledge last fault =>
    refine iff_of_true ?_ trivial
    simp only [exec, RelaySession.acknowledge]
    split
    · exact h
    · split
      · exact h
      · split_ifs <;> exact h
  | injectHook payload fault => exact iff_of_true h trivial
  | tickReconnect jitter outcome =>
    refine iff_of_true ?_ trivial
    simp only [exec, RelaySession.tickReconnect]
    split_ifs
    · exact h
    · exact h
    · cases r.session.reconnect.delayMs r.session.attempt jitter with
      | none => exact h
      | some delay =>
        dsimp only
        cases connect r.session.host r.session.resume outcome with
        | ok c => simp [Honest]
        | error error => exact honest_of_none rfl (state_fail _ error)
  | snapshot alive =>
    refine iff_of_true ?_ trivial
    simp only [exec, RelaySession.snapshot]
    split
    · exact h
    · exact honest_of_none rfl (Or.inl rfl)
    · exact h

/-- A reconnect is skipped as if the session were streaming only if it has a connection. -/
theorem Honest.tick (h : Honest r) (hnone : r.session.connection = none) (jitter : ℤ)
    (outcome : Except TransportError RelayHello) :
    (r.session.tickReconnect jitter outcome).1 ≠ .ok false := by
  have hstate : ¬ (r.session.state = .streaming ∨ r.session.state = .connecting) := by
    rintro (hstreaming | hconnecting)
    · have hsome := h.2.1 hstreaming
      rw [hnone] at hsome
      cases hsome
    · exact h.1 hconnecting
  unfold RelaySession.tickReconnect
  rw [if_neg hstate]
  split_ifs
  · simp
  · cases r.session.reconnect.delayMs r.session.attempt jitter with
    | none => simp
    | some delay =>
      dsimp only
      cases connect r.session.host r.session.resume outcome <;> simp

/-- Along every run of one session : all states are honest exactly if every `stop` closes the
connection it takes; and then no reconnect is skipped for a session without a connection. -/
theorem state_honest_iff (host : RemoteHostConfig) (policy : ReconnectPolicy) (first : ℕ)
    (calls : List SessionCall) :
    ((∀ r ∈ visited step (initial (.withResume host policy first)) calls, r.Honest) ↔
      Guarded step ClosesOnStop (initial (.withResume host policy first)) calls) ∧
    (Guarded step ClosesOnStop (initial (.withResume host policy first)) calls →
      ∀ r ∈ visited step (initial (.withResume host policy first)) calls,
        r.session.connection = none → ∀ jitter outcome,
          (r.session.tickReconnect jitter outcome).1 ≠ .ok false) := by
  have hiff : (∀ r ∈ visited step (initial (.withResume host policy first)) calls, r.Honest) ↔
      Guarded step ClosesOnStop (initial (.withResume host policy first)) calls :=
    Guarded.forall_visited_iff (fun r call h => ⟨r.exec call, rfl, h.exec_iff call⟩)
      (honest_of_none rfl (Or.inl rfl))
  refine ⟨hiff, fun hguard r hr hnone jitter outcome => ?_⟩
  exact (hiff.2 hguard r hr).tick hnone jitter outcome

/-- A session is started and stopped, and its process is killed. -/
def cleanStop : List SessionCall :=
  [.start (.ok (sampleHello 0)), .stop none]

theorem state_honest_cleanStop :
    ∀ r ∈ visited step (initial (.withResume sampleHost .default 0)) cleanStop, r.Honest := by
  refine (state_honest_iff sampleHost .default 0 cleanStop).1.2 ⟨trivial, ?_⟩
  rintro r ⟨⟩
  refine ⟨?_, fun _ _ => trivial⟩
  intro c hc
  unfold Connection.close
  cases c.closed <;> rfl

/-- A session is started, and its process cannot be killed when it is stopped. -/
def failedStop : List SessionCall :=
  [.start (.ok (sampleHello 0)), .stop (some (.process "kill failed"))]

/-- The session has no connection and says that it streams, and it is not reconnected. -/
theorem streaming_without_connection :
    ∃ r, run step (initial (.withResume sampleHost .default 0)) failedStop = some r ∧
      r.session.connection = none ∧ r.session.state = .streaming ∧
      ∀ jitter outcome, (r.session.tickReconnect jitter outcome).1 = .ok false := by
  have hrun : ((run step (initial (.withResume sampleHost .default 0)) failedStop).map
      fun r => (r.session.connection, r.session.state)) = some (none, .streaming) := by
    decide
  obtain ⟨r, hr, hparts⟩ := Option.map_eq_some_iff.1 hrun
  obtain ⟨hconnection, hstate⟩ := Prod.mk.inj hparts
  refine ⟨r, hr, hconnection, hstate, fun jitter outcome => ?_⟩
  unfold RelaySession.tickReconnect
  rw [if_pos (Or.inl hstate)]

end SessionRun

end Relay

end LlmNotch
