import LlmNotch.RemoteRegistry

/-!
# When a lost relay is connected again

A poll of the desktop looks at every relay session. It reads from those that stream, reconnects
those whose connection is gone, and keeps in the watch of the host how many attempts were made and
when the next one is due.

`Schedule` says when an attempt may be made : each loss of a connection and each refused attempt
counts as one, and the next attempt waits for the delay of the count before. `pollEvents` are the
losses and attempts of a poll, and `Polled` is everything a poll can do to a session.

`Polled.onTime_iff` : the watch keeps the count of the schedule over a poll, with no attempt before
its time, exactly if the poll `CountsOnce`. A stream that ends while it is read is counted twice,
and a loss that is found before the read is followed by an attempt at once.
-/

namespace LlmNotch

namespace Relay

/-! ## The schedule -/

/-- What a poll finds or does at the connection of a host. -/
inductive ConnectEvent where
  | lost | refused | connected
  deriving DecidableEq

/-- `early` : an attempt was made before its time. -/
structure Schedule where
  attempts : ℕ
  notBefore : Option ℤ
  early : Bool
  deriving DecidableEq

def reconnectDelay (attempt : ℕ) : ℕ :=
  (ReconnectPolicy.default.delayMs attempt 0).getD ReconnectPolicy.default.maxDelayMs

namespace Schedule

def waits (schedule : Schedule) (now : ℤ) : Bool :=
  schedule.notBefore.any fun time => now < time

def advance (now : ℤ) (schedule : Schedule) : Schedule :=
  { schedule with
    attempts := schedule.attempts + 1
    notBefore := some (now + reconnectDelay schedule.attempts) }

def after (now : ℤ) (schedule : Schedule) : ConnectEvent → Schedule
  | .lost => schedule.advance now
  | .refused => { schedule.advance now with early := schedule.early || schedule.waits now }
  | .connected => ⟨0, none, schedule.early || schedule.waits now⟩

def follow (now : ℤ) (schedule : Schedule) (events : List ConnectEvent) : Schedule :=
  events.foldl (after now) schedule

end Schedule

/-! ## The events of a poll -/

def lossBetween (s s' : RelaySession) : List ConnectEvent :=
  if s.connection.isSome && s'.connection.isNone then [.lost] else []

theorem lossBetween_self (s : RelaySession) : lossBetween s s = [] := by
  unfold lossBetween
  cases s.connection <;> rfl

theorem lossBetween_dropped {s s' : RelaySession} (hsome : s.connection.isSome = true)
    (hnone : s'.connection = none) : lossBetween s s' = [.lost] := by
  unfold lossBetween
  rw [hsome, hnone]
  rfl

/-- The events of a poll of one session, in their order. -/
def pollEvents (now : ℤ) (poll : HostPoll) (s : RelaySession) (w : SessionWatch) :
    List ConnectEvent :=
  let found := (s.snapshot poll.aliveFirst).snapshot poll.aliveBefore
  let polled := pollState now poll found w
  lossBetween s found ++
    (if polled.2.2 then [if polled.1.connection.isSome then .connected else .refused]
      else lossBetween found polled.1) ++
    lossBetween polled.1 (polled.1.snapshot poll.aliveAfter)

/-- `is_alive().unwrap_or(false)` -/
def isAlive : Except TransportError Bool → Bool
  | .ok alive => alive
  | .error _ => false

namespace HostPoll

/-- A read would find the end of the stream. -/
def endsStream (poll : HostPoll) : Bool :=
  match poll.aliveReceive, poll.read with
  | .ok false, _ => true
  | .ok true, .ok none => true
  | _, _ => false

/-- The connection is still there when the poll reads from it. -/
def aliveAtRead (poll : HostPoll) : Bool :=
  isAlive poll.aliveFirst && isAlive poll.aliveBefore

end HostPoll

/-- An attempt to reconnect is due. -/
def Attempts (now : ℤ) (s : RelaySession) (w : SessionWatch) : Prop :=
  s.state = .disconnected ∧ w.nextReconnectAtMs ≤ now ∧ s.attempt < 12

def Accepts (poll : HostPoll) (s : RelaySession) : Prop :=
  ∃ connection, connect s.host s.resume poll.outcome = .ok connection

/-- The losses of a poll are counted once, and no attempt follows one at once. -/
def CountsOnce (now : ℤ) (poll : HostPoll) (s : RelaySession) (w : SessionWatch) : Prop :=
  if s.connection.isSome then
    if poll.aliveAtRead then
      if poll.endsStream then w.lastConnectionState ≠ .streaming
      else isAlive poll.aliveAfter ∨ w.lastConnectionState = .streaming
    else now < w.nextReconnectAtMs ∧ w.lastConnectionState = .streaming
  else if w.lastConnectionState = .streaming then Attempts now s w ∧ Accepts poll s
  else Attempts now s w → Accepts poll s → isAlive poll.aliveAfter

/-! ## Sessions between two polls -/

/-- A session between two calls, with the watch of its host. -/
structure Paced (s : RelaySession) (w : SessionWatch) : Prop where
  policy : s.reconnect = .default
  state : s.connection.isSome ∧ s.state = .streaming ∨
    s.connection = none ∧ s.state.ended = true
  fresh : s.connection.isSome → s.attempt = 0 ∧ w.reconnectAttempt = 0
  attempt : s.attempt ≤ 12
  bound : w.reconnectAttempt ≤
    2 * s.attempt + if w.lastConnectionState = .streaming then 1 else 2

namespace RelaySession

variable {s : RelaySession} {now : ℤ} {poll : HostPoll} {w : SessionWatch}

theorem snapshot_none (hnone : s.connection = none) (alive : Except TransportError Bool) :
    s.snapshot alive = s := by
  unfold snapshot
  rw [hnone]

variable {alive : Except TransportError Bool}

theorem snapshot_alive (halive : isAlive alive = true) : s.snapshot alive = s := by
  cases alive with
  | error error => cases halive
  | ok value =>
    cases halive
    unfold snapshot
    split
    · rfl
    · next hother => exact absurd rfl hother
    · rfl

/-- A connection that is gone is dropped. -/
theorem snapshot_dead (halive : isAlive alive = false) (hsome : s.connection.isSome = true) :
    s.snapshot alive = s.handleDisconnect := by
  obtain ⟨connection, hconnection⟩ := Option.isSome_iff_exists.1 hsome
  unfold snapshot
  rw [hconnection]
  cases alive with
  | error error => rfl
  | ok value =>
    cases halive
    rfl

end RelaySession

namespace SessionWatch

variable {w : SessionWatch} {now : ℤ} {state : ConnectionState}

theorem scheduleReconnect_attempt (now : ℤ) (hbound : w.reconnectAttempt ≤ 60000) :
    (w.scheduleReconnect now).reconnectAttempt = w.reconnectAttempt + 1 := by
  simp only [scheduleReconnect]
  omega

theorem observe_last : (w.observe state now).lastConnectionState = state := by
  unfold observe
  split_ifs with hsame <;> first | rfl | exact hsame.symm

/-- A host that was seen streaming, and has no connection at the end of a poll. -/
theorem observe_ended_counted (hended : state.ended = true)
    (hlast : w.lastConnectionState = .streaming) :
    w.observe state now = { w.scheduleReconnect now with lastConnectionState := state } := by
  have hstate : state ≠ .streaming := by
    rintro rfl
    cases hended
  unfold observe
  rw [if_neg (fun hsame => hstate (hsame.trans hlast)), if_neg hstate, if_pos]
  simp [hlast, hended]

theorem observe_ended_same (hended : state.ended = true)
    (hlast : w.lastConnectionState ≠ .streaming) :
    w.observe state now = { w with lastConnectionState := state } := by
  have hstate : state ≠ .streaming := by
    rintro rfl
    cases hended
  unfold observe
  split_ifs with hsame hcount
  · rw [hsame]
  · simp [hlast] at hcount
  · rfl

theorem observe_streaming_same (hlast : w.lastConnectionState = .streaming) :
    w.observe .streaming now = w := by
  unfold observe
  rw [if_pos hlast.symm]

theorem observe_streaming_reset (hlast : w.lastConnectionState ≠ .streaming) :
    w.observe .streaming now =
      { w with
        lastConnectionState := .streaming
        reconnectAttempt := 0
        nextReconnectAtMs := 0 } := by
  unfold observe
  rw [if_neg (Ne.symm hlast), if_pos rfl]

end SessionWatch

/-! ## What a poll does -/

/-- The session of an accepted attempt. -/
def RelaySession.reconnected (s : RelaySession) (connection : Connection) : RelaySession :=
  { s with connection := some connection, state := .streaming, lastError := none, attempt := 0 }

/-- The session of a refused attempt. -/
def RelaySession.refused (s : RelaySession) (error : TransportError) : RelaySession :=
  { s with attempt := min (s.attempt + 1) (2 ^ 16 - 1) }.fail error

def SessionWatch.reset (w : SessionWatch) : SessionWatch :=
  { w with reconnectAttempt := 0, nextReconnectAtMs := 0 }

/-- What a poll does to a session, with the events it gives. -/
inductive Polled (now : ℤ) (poll : HostPoll) : RelaySession → SessionWatch →
    List ConnectEvent → RelaySession → SessionWatch → Prop
  | idle {s : RelaySession} {w : SessionWatch} (hnone : s.connection = none)
    (hidle : ¬ Attempts now s w) :
    Polled now poll s w [] s (w.observe s.state now)
  | refused {s : RelaySession} {w : SessionWatch} {error : TransportError}
    (hnone : s.connection = none) (hattempts : Attempts now s w)
    (hconnect : connect s.host s.resume poll.outcome = .error error) :
    Polled now poll s w [.refused] (s.refused error)
      ((w.scheduleReconnect now).observe (s.refused error).state now)
  | accepted {s : RelaySession} {w : SessionWatch} {connection : Connection}
    (hnone : s.connection = none) (hattempts : Attempts now s w)
    (hconnect : connect s.host s.resume poll.outcome = .ok connection)
    (halive : isAlive poll.aliveAfter = true) :
    Polled now poll s w [.connected] (s.reconnected connection) (w.reset.observe .streaming now)
  | fleeting {s : RelaySession} {w : SessionWatch} {connection : Connection}
    (hnone : s.connection = none) (hattempts : Attempts now s w)
    (hconnect : connect s.host s.resume poll.outcome = .ok connection)
    (hdead : isAlive poll.aliveAfter = false) :
    Polled now poll s w [.connected, .lost] (s.reconnected connection).handleDisconnect
      (w.reset.observe .disconnected now)
  | dropped {s s' : RelaySession} {w w' : SessionWatch} {events : List ConnectEvent}
    (hsome : s.connection.isSome = true) (hdead : poll.aliveAtRead = false)
    (hrest : Polled now poll s.handleDisconnect w events s' w') :
    Polled now poll s w (.lost :: events) s' w'
  | ended {s : RelaySession} {w : SessionWatch} (hsome : s.connection.isSome = true)
    (halive : poll.aliveAtRead = true) (hends : poll.endsStream = true) :
    Polled now poll s w [.lost] s.handleDisconnect
      ((w.scheduleReconnect now).observe .disconnected now)
  | streams {s : RelaySession} {w : SessionWatch} (connection : Connection) (resume : ℕ)
    (hsome : s.connection.isSome = true) (hstate : s.state = .streaming)
    (halive : poll.aliveAtRead = true) (hends : poll.endsStream = false)
    (hafter : isAlive poll.aliveAfter = true) :
    Polled now poll s w [] { s with connection := some connection, resume := resume }
      (w.observe s.state now)
  | breaks {s : RelaySession} {w : SessionWatch} (resume : ℕ) (hsome : s.connection.isSome = true)
    (halive : poll.aliveAtRead = true) (hends : poll.endsStream = false)
    (hafter : isAlive poll.aliveAfter = false) :
    Polled now poll s w [.lost] { s with resume := resume }.handleDisconnect
      (w.observe .disconnected now)

section

variable {s : RelaySession} {now : ℤ} {poll : HostPoll} {w : SessionWatch}

theorem delayMs_eq_none {attempt : ℕ} {jitter : ℤ} :
    ReconnectPolicy.default.delayMs attempt jitter = none ↔ 12 ≤ attempt := by
  have hmax : ReconnectPolicy.default.maxAttempts.toNat = 12 := rfl
  unfold ReconnectPolicy.delayMs
  rw [hmax]
  dsimp only
  split_ifs with hlimit
  · exact iff_of_true rfl hlimit
  · exact iff_of_false not_false hlimit

/-- No attempt is due, or the session has given up. -/
theorem pollState_idle (hpolicy : s.reconnect = .default) (hended : s.state.ended = true)
    (hidle : ¬ Attempts now s w) : pollState now poll s w = (s, w, false) := by
  unfold pollState
  split
  · next hstate =>
    rw [hstate] at hended
    cases hended
  · next hstate =>
    split_ifs with htime
    · have hgiven : ¬ s.attempt < 12 := fun hattempt => hidle ⟨hstate, htime, hattempt⟩
      have hdelay : ReconnectPolicy.default.delayMs s.attempt
          (reconnectJitterBasisPoints s.host.id) = none :=
        delayMs_eq_none.2 (Nat.not_lt.1 hgiven)
      rw [← hpolicy] at hdelay
      have htick : s.tickReconnect (reconnectJitterBasisPoints s.host.id) poll.outcome =
          (.error .requiresRestart, s, false) := by
        unfold RelaySession.tickReconnect
        rw [if_neg (by simp [hstate]), if_neg (by simp [hstate]), hdelay]
      rw [htick]
    · rfl
  · rfl

theorem tickReconnect_attempts (hpolicy : s.reconnect = .default)
    (hattempts : Attempts now s w) (jitter : ℤ) (outcome : Except TransportError RelayHello) :
    s.tickReconnect jitter outcome = match connect s.host s.resume outcome with
      | .ok connection => (.ok true, s.reconnected connection, true)
      | .error error => (.error (.transport error), s.refused error, true) := by
  obtain ⟨hstate, -, hattempt⟩ := hattempts
  have hsome : ReconnectPolicy.default.delayMs s.attempt jitter ≠ none :=
    fun hnone => absurd (delayMs_eq_none.1 hnone) (Nat.not_le.2 hattempt)
  obtain ⟨delay, hdelay⟩ := Option.ne_none_iff_exists'.1 hsome
  rw [← hpolicy] at hdelay
  unfold RelaySession.tickReconnect
  rw [if_neg (by simp [hstate]), if_neg (by simp [hstate]), hdelay]
  dsimp only
  cases connect s.host s.resume outcome <;> rfl

theorem pollState_accepted (hpolicy : s.reconnect = .default) (hattempts : Attempts now s w)
    {connection : Connection} (hconnect : connect s.host s.resume poll.outcome = .ok connection) :
    pollState now poll s w = (s.reconnected connection, w.reset, true) := by
  unfold pollState
  rw [hattempts.1]
  dsimp only
  rw [if_pos hattempts.2.1, tickReconnect_attempts hpolicy hattempts, hconnect]
  rfl

variable {error : TransportError} {schedule : Schedule} {events : List ConnectEvent}
  {s' : RelaySession} {w' : SessionWatch}

theorem pollState_refused (hpolicy : s.reconnect = .default) (hattempts : Attempts now s w)
    (hconnect : connect s.host s.resume poll.outcome = .error error) :
    pollState now poll s w = (s.refused error, w.scheduleReconnect now, true) := by
  unfold pollState
  rw [hattempts.1]
  dsimp only
  rw [if_pos hattempts.2.1, tickReconnect_attempts hpolicy hattempts, hconnect]

/-- The end of the stream is found by the read. -/
theorem pollState_ends (hsome : s.connection.isSome = true) (hstate : s.state = .streaming)
    (hends : poll.endsStream = true) :
    pollState now poll s w = (s.handleDisconnect, w.scheduleReconnect now, false) := by
  obtain ⟨connection, hconnection⟩ := Option.isSome_iff_exists.1 hsome
  have hreceive : s.receive poll.aliveReceive poll.read = (.ok none, s.handleDisconnect) := by
    unfold RelaySession.receive
    rw [hconnection]
    unfold HostPoll.endsStream at hends
    split at hends
    · next halive =>
      rw [halive]
    · next halive hread =>
      rw [halive, hread]
      rfl
    · cases hends
  unfold pollState
  rw [hstate]
  dsimp only
  rw [hreceive]

theorem receive_ok_none {c c' : Connection} {read : Except TransportError (Option RelayFrame)}
    (h : c.receive read = (.ok none, c')) : read = .ok none := by
  unfold Connection.receive at h
  split at h
  · cases h
  · rfl
  · split at h <;> cases h

/-- A read that does not find the end of the stream leaves the session connected. -/
theorem RelaySession.receive_streams (hsome : s.connection.isSome = true)
    (hends : poll.endsStream = false) :
    (∃ error, s.receive poll.aliveReceive poll.read = (.error error, s)) ∨
    ∃ frame connection resume, s.receive poll.aliveReceive poll.read =
      (.ok (some frame), { s with connection := some connection, resume := resume }) := by
  obtain ⟨connection, hconnection⟩ := Option.isSome_iff_exists.1 hsome
  unfold RelaySession.receive
  rw [hconnection]
  dsimp only
  unfold HostPoll.endsStream at hends
  split
  · exact .inl ⟨_, rfl⟩
  · next halive =>
    rw [halive] at hends
    cases hends
  · next halive =>
    rw [halive] at hends
    split
    · next connection' hreceive =>
      rw [SessionRun.receive_error hreceive, ← hconnection]
      exact .inl ⟨_, rfl⟩
    · next hreceive =>
      rw [receive_ok_none hreceive] at hends
      cases hends
    · exact .inr ⟨_, _, _, rfl⟩

theorem RelaySession.acknowledge_snd (s : RelaySession) (last : ℕ)
    (fault : Option TransportError) :
    ∃ resume, (s.acknowledge last fault).2 = { s with resume := resume } := by
  unfold RelaySession.acknowledge
  split
  · exact ⟨s.resume, rfl⟩
  · split
    · exact ⟨s.resume, rfl⟩
    · dsimp only
      split_ifs
      · exact ⟨last, rfl⟩
      · exact ⟨s.resume, rfl⟩

theorem pollState_streams (now : ℤ) (w : SessionWatch) (hsome : s.connection.isSome = true)
    (hstate : s.state = .streaming) (hends : poll.endsStream = false) :
    ∃ connection resume, pollState now poll s w =
      ({ s with connection := some connection, resume := resume }, w, false) := by
  obtain ⟨connection, hconnection⟩ := Option.isSome_iff_exists.1 hsome
  unfold pollState
  rw [hstate]
  dsimp only
  rcases RelaySession.receive_streams hsome hends with
    ⟨error, hreceive⟩ | ⟨frame, connection', resume, hreceive⟩
  · refine ⟨connection, s.resume, ?_⟩
    rw [hreceive, ← hconnection, ← hstate]
  · rw [hreceive]
    obtain ⟨resume', hacknowledge⟩ := RelaySession.acknowledge_snd
      { s with connection := some connection', resume := resume } frame.sequence poll.ackFault
    refine ⟨connection', resume', ?_⟩
    dsimp only
    rw [hacknowledge, ← hstate]

/-- A poll of a session without a connection. -/
theorem polled_unconnected (hpolicy : s.reconnect = .default) (hnone : s.connection = none)
    (hended : s.state.ended = true) :
    Polled now poll s w (pollEvents now poll s w)
      (pollSession now poll (s.snapshot poll.aliveFirst) w).1
      (pollSession now poll (s.snapshot poll.aliveFirst) w).2.1 := by
  unfold pollEvents pollSession
  dsimp only
  simp only [RelaySession.snapshot_none hnone]
  by_cases hattempts : Attempts now s w
  · cases hconnect : connect s.host s.resume poll.outcome with
    | error error =>
      have hrefused : (s.refused error).connection = none := rfl
      rw [pollState_refused hpolicy hattempts hconnect, lossBetween_self,
        RelaySession.snapshot_none hrefused, lossBetween_self]
      exact .refused hnone hattempts hconnect
    | ok connection =>
      have hsome : (s.reconnected connection).connection.isSome = true := rfl
      rw [pollState_accepted hpolicy hattempts hconnect, lossBetween_self]
      cases hafter : isAlive poll.aliveAfter with
      | true =>
        rw [RelaySession.snapshot_alive hafter, lossBetween_self]
        exact .accepted hnone hattempts hconnect hafter
      | false =>
        rw [RelaySession.snapshot_dead hafter hsome, lossBetween_dropped hsome rfl]
        exact .fleeting hnone hattempts hconnect hafter
  · rw [pollState_idle hpolicy hended hattempts, RelaySession.snapshot_none hnone,
      lossBetween_self]
    exact .idle hnone hattempts

/-- A connection that is gone before the poll reads is dropped by the poll. -/
theorem snapshot_early (hsome : s.connection.isSome = true) (hdead : poll.aliveAtRead = false) :
    (s.snapshot poll.aliveFirst).snapshot poll.aliveBefore = s.handleDisconnect := by
  cases hfirst : isAlive poll.aliveFirst with
  | true =>
    have hbefore : isAlive poll.aliveBefore = false := by
      simpa [HostPoll.aliveAtRead, hfirst] using hdead
    rw [RelaySession.snapshot_alive hfirst, RelaySession.snapshot_dead hbefore hsome]
  | false =>
    rw [RelaySession.snapshot_dead hfirst hsome, RelaySession.snapshot_none rfl]

/-- The same for a poll of the session that was dropped. -/
theorem polled_dropped (hpolicy : s.reconnect = .default) (hsome : s.connection.isSome = true)
    (hdead : poll.aliveAtRead = false) :
    Polled now poll s w (pollEvents now poll s w)
      (pollSession now poll (s.snapshot poll.aliveFirst) w).1
      (pollSession now poll (s.snapshot poll.aliveFirst) w).2.1 := by
  have hrest : Polled now poll s.handleDisconnect w (pollEvents now poll s.handleDisconnect w)
      (pollSession now poll (s.handleDisconnect.snapshot poll.aliveFirst) w).1
      (pollSession now poll (s.handleDisconnect.snapshot poll.aliveFirst) w).2.1 :=
    polled_unconnected hpolicy rfl rfl
  have hnone : s.handleDisconnect.connection = none := rfl
  have hsession : pollSession now poll (s.snapshot poll.aliveFirst) w =
      pollSession now poll (s.handleDisconnect.snapshot poll.aliveFirst) w := by
    unfold pollSession
    rw [snapshot_early hsome hdead, RelaySession.snapshot_none hnone,
      RelaySession.snapshot_none hnone]
  have hevents : pollEvents now poll s w = .lost :: pollEvents now poll s.handleDisconnect w := by
    unfold pollEvents
    dsimp only
    rw [snapshot_early hsome hdead, RelaySession.snapshot_none hnone,
      RelaySession.snapshot_none hnone, lossBetween_dropped hsome hnone, lossBetween_self]
    rfl
  rw [hsession, hevents]
  exact .dropped hsome hdead hrest

theorem polled_connected (hsome : s.connection.isSome = true) (hstate : s.state = .streaming)
    (halive : poll.aliveAtRead = true) :
    Polled now poll s w (pollEvents now poll s w)
      (pollSession now poll (s.snapshot poll.aliveFirst) w).1
      (pollSession now poll (s.snapshot poll.aliveFirst) w).2.1 := by
  obtain ⟨hfirst, hbefore⟩ := Bool.and_eq_true_iff.1 halive
  unfold pollEvents pollSession
  dsimp only
  rw [RelaySession.snapshot_alive hfirst, RelaySession.snapshot_alive hbefore, lossBetween_self]
  cases hends : poll.endsStream with
  | true =>
    have hnone : s.handleDisconnect.connection = none := rfl
    rw [pollState_ends hsome hstate hends, RelaySession.snapshot_none hnone,
      lossBetween_dropped hsome hnone, lossBetween_self]
    exact .ended hsome halive hends
  | false =>
    obtain ⟨connection, resume, hpoll⟩ := pollState_streams now w hsome hstate hends
    rw [hpoll]
    have hkept : lossBetween s { s with connection := some connection, resume := resume } = [] := by
      unfold lossBetween
      rw [hsome]
      rfl
    rw [hkept]
    cases hafter : isAlive poll.aliveAfter with
    | true =>
      rw [RelaySession.snapshot_alive hafter, lossBetween_self]
      exact .streams connection resume hsome hstate halive hends hafter
    | false =>
      rw [RelaySession.snapshot_dead hafter rfl, lossBetween_dropped rfl rfl]
      exact .breaks resume hsome halive hends hafter

theorem polled_cases (h : Paced s w) :
    Polled now poll s w (pollEvents now poll s w)
      (pollSession now poll (s.snapshot poll.aliveFirst) w).1
      (pollSession now poll (s.snapshot poll.aliveFirst) w).2.1 := by
  rcases h.state with ⟨hsome, hstate⟩ | ⟨hnone, hended⟩
  · cases halive : poll.aliveAtRead with
    | true => exact polled_connected hsome hstate halive
    | false => exact polled_dropped h.policy hsome halive
  · exact polled_unconnected h.policy hnone hended

/-! ## One poll -/

/-- The watch has the count of the schedule, and no attempt was early. -/
structure InStep (schedule : Schedule) (s : RelaySession) (w : SessionWatch) : Prop where
  attempts : w.reconnectAttempt = schedule.attempts
  early : schedule.early = false
  waits : ∀ time ∈ schedule.notBefore, time ≤ w.nextReconnectAtMs
  quiet : s.connection.isSome = true → schedule.notBefore = none

theorem RelaySession.refused_state (s : RelaySession) (error : TransportError) :
    (s.refused error).state.ended = true := by
  unfold refused fail
  dsimp only
  split_ifs <;> rfl

/-- The count is right, and no attempt was early. -/
def OnTime (schedule : Schedule) (w : SessionWatch) : Prop :=
  w.reconnectAttempt = schedule.attempts ∧ schedule.early = false

section

variable (h : InStep schedule s w)

include h

theorem InStep.onTime : OnTime schedule w :=
  ⟨h.attempts, h.early⟩

theorem InStep.not_waits (hdue : w.nextReconnectAtMs ≤ now) : schedule.waits now = false := by
  unfold Schedule.waits
  cases htime : schedule.notBefore with
  | none => rfl
  | some time =>
    have hle := h.waits time htime
    simp only [Option.any_some, decide_eq_false_iff_not]
    omega

/-- An attempt the watch allows is not early. -/
theorem InStep.early_attempt (hattempts : Attempts now s w) :
    (schedule.early || schedule.waits now) = false := by
  rw [h.early, h.not_waits hattempts.2.1]
  rfl

/-- A loss or a refused attempt that is counted once. -/
theorem InStep.counted (now : ℤ) (s' : RelaySession) (hbound : w.reconnectAttempt ≤ 60000)
    (hnone : s'.connection = none) (state : ConnectionState) :
    InStep (schedule.advance now) s'
      { w.scheduleReconnect now with lastConnectionState := state } := by
  refine ⟨?_, h.early, ?_, fun hsome => ?_⟩
  · exact (SessionWatch.scheduleReconnect_attempt now hbound).trans (congrArg (· + 1) h.attempts)
  · rintro time ⟨⟩
    rw [← h.attempts]
    exact le_refl _
  · rw [hnone] at hsome
    cases hsome

theorem InStep.not_missed {after : Schedule} (hafter : after.attempts = schedule.attempts + 1)
    (state : ConnectionState) : ¬ OnTime after { w with lastConnectionState := state } := by
  intro hontime
  have hattempts : w.reconnectAttempt = after.attempts := hontime.1
  have hcount := h.attempts
  omega

/-- The poll counts once, and its end counts again. -/
theorem InStep.not_twice {after : Schedule} {state : ConnectionState}
    (hafter : after.attempts = schedule.attempts + 1) (hbound : w.reconnectAttempt ≤ 50000)
    (hended : state.ended = true) (hlast : w.lastConnectionState = .streaming) :
    ¬ OnTime after ((w.scheduleReconnect now).observe state now) := by
  intro hontime
  rw [SessionWatch.observe_ended_counted (w := w.scheduleReconnect now) hended hlast] at hontime
  have honce := SessionWatch.scheduleReconnect_attempt now
    (show w.reconnectAttempt ≤ 60000 by omega)
  have htwice := SessionWatch.scheduleReconnect_attempt now
    (show (w.scheduleReconnect now).reconnectAttempt ≤ 60000 by omega)
  have hattempts := htwice.symm.trans hontime.1
  have hcount := h.attempts
  omega

end

theorem not_accepts (hconnect : connect s.host s.resume poll.outcome = .error error) :
    ¬ Accepts poll s := by
  rintro ⟨connection, haccepts⟩
  rw [hconnect] at haccepts
  cases haccepts

theorem countsOnce_none (hnone : s.connection = none) :
    CountsOnce now poll s w ↔
      if w.lastConnectionState = .streaming then Attempts now s w ∧ Accepts poll s
      else Attempts now s w → Accepts poll s → isAlive poll.aliveAfter := by
  unfold CountsOnce
  rw [hnone]
  rfl

/-- A poll of a session without a connection either counts each attempt once and stays in step, or
is off. -/
theorem Polled.step_of_none (hpolled : Polled now poll s w events s' w')
    (hnone : s.connection = none) (hended : s.state.ended = true)
    (hbound : w.reconnectAttempt ≤ 30000) (h : InStep schedule s w) :
    CountsOnce now poll s w ∧ InStep (schedule.follow now events) s' w' ∨
      ¬ CountsOnce now poll s w ∧ ¬ OnTime (schedule.follow now events) w' := by
  rw [countsOnce_none hnone]
  cases hpolled with
  | idle _ hidle =>
    by_cases hlast : w.lastConnectionState = .streaming
    · right
      rw [if_pos hlast]
      refine ⟨fun hcounts => hidle hcounts.1, fun hontime => ?_⟩
      have hattempts : (w.observe s.state now).reconnectAttempt = w.reconnectAttempt :=
        hontime.1.trans h.attempts.symm
      rw [SessionWatch.observe_ended_counted hended hlast] at hattempts
      have hscheduled := SessionWatch.scheduleReconnect_attempt now
        (show w.reconnectAttempt ≤ 60000 by omega)
      exact absurd (hscheduled.symm.trans hattempts) (Nat.succ_ne_self _)
    · left
      rw [if_neg hlast, SessionWatch.observe_ended_same hended hlast]
      exact ⟨fun hattempts => absurd hattempts hidle, h.attempts, h.early, h.waits, h.quiet⟩
  | @refused _ _ error _ hattempts hconnect =>
    have hrefused := s.refused_state error
    by_cases hlast : w.lastConnectionState = .streaming
    · right
      rw [if_pos hlast]
      exact ⟨fun hcounts => not_accepts hconnect hcounts.2,
        h.not_twice rfl (by omega) hrefused hlast⟩
    · left
      rw [if_neg hlast,
        SessionWatch.observe_ended_same (w := w.scheduleReconnect now) hrefused hlast]
      have hcounted := h.counted now (s.refused error) (by omega) rfl
        (s.refused error).state
      exact ⟨fun _ haccepts => absurd haccepts (not_accepts hconnect), hcounted.attempts,
        h.early_attempt hattempts, hcounted.waits, hcounted.quiet⟩
  | @accepted _ _ connection _ hattempts hconnect halive =>
    left
    refine ⟨?_, ?_, h.early_attempt hattempts, ?_, fun _ => rfl⟩
    · split_ifs
      · exact ⟨hattempts, connection, hconnect⟩
      · exact fun _ _ => halive
    · by_cases hlast : w.lastConnectionState = .streaming
      · rw [SessionWatch.observe_streaming_same (w := w.reset) hlast]
        rfl
      · rw [SessionWatch.observe_streaming_reset (w := w.reset) hlast]
        rfl
    · rintro time ⟨⟩
  | @fleeting _ _ connection _ hattempts hconnect hdead =>
    by_cases hlast : w.lastConnectionState = .streaming
    · left
      rw [if_pos hlast, SessionWatch.observe_ended_counted (w := w.reset) rfl hlast]
      refine ⟨⟨hattempts, connection, hconnect⟩, rfl, h.early_attempt hattempts, ?_, ?_⟩
      · rintro time ⟨⟩
        exact le_refl _
      · rintro ⟨⟩
    · right
      rw [if_neg hlast, SessionWatch.observe_ended_same (w := w.reset) rfl hlast]
      refine ⟨fun hcounts => ?_, fun hontime => ?_⟩
      · rw [hcounts hattempts ⟨connection, hconnect⟩] at hdead
        cases hdead
      · cases hontime.1
  | dropped hsome => rw [hnone] at hsome; cases hsome
  | ended hsome => rw [hnone] at hsome; cases hsome
  | streams _ _ hsome => rw [hnone] at hsome; cases hsome
  | breaks _ hsome => rw [hnone] at hsome; cases hsome

theorem Schedule.advance_waits (now : ℤ) (hzero : schedule.attempts = 0) :
    (schedule.advance now).waits now = true := by
  have hdelay : reconnectDelay schedule.attempts = 500 := by
    rw [hzero]
    decide
  simp only [advance, waits, hdelay, Option.any_some, decide_eq_true_eq]
  omega

/-- An attempt in the poll that found the loss is early. -/
theorem Schedule.early_of_lost (now : ℤ) {event : ConnectEvent} (hzero : schedule.attempts = 0)
    (hevent : event ≠ .lost) : (schedule.follow now [.lost, event]).early = true := by
  have hwaits := schedule.advance_waits now hzero
  cases event with
  | lost => exact absurd rfl hevent
  | refused =>
    show ((schedule.advance now).early || (schedule.advance now).waits now) = true
    rw [hwaits, Bool.or_true]
  | connected =>
    show ((schedule.advance now).early || (schedule.advance now).waits now) = true
    rw [hwaits, Bool.or_true]

/-- A poll that finds the connection gone before it reads. -/
theorem Polled.step_of_dropped (hpaced : Paced s w) (hsome : s.connection.isSome = true)
    (hdead : poll.aliveAtRead = false) (hrest : Polled now poll s.handleDisconnect w events s' w')
    (h : InStep schedule s w) :
    CountsOnce now poll s w ∧ InStep (schedule.follow now (.lost :: events)) s' w' ∨
      ¬ CountsOnce now poll s w ∧ ¬ OnTime (schedule.follow now (.lost :: events)) w' := by
  have hcounts : CountsOnce now poll s w ↔
      now < w.nextReconnectAtMs ∧ w.lastConnectionState = .streaming := by
    unfold CountsOnce
    rw [hsome, hdead]
    rfl
  obtain ⟨hattempt, hzero⟩ := hpaced.fresh hsome
  have hcount : schedule.attempts = 0 := h.attempts.symm.trans hzero
  rw [hcounts]
  cases hrest with
  | idle _ hidle =>
    have hdue : now < w.nextReconnectAtMs := by
      by_contra hle
      refine hidle ⟨rfl, not_lt.1 hle, ?_⟩
      show s.attempt < 12
      omega
    by_cases hlast : w.lastConnectionState = .streaming
    · left
      rw [SessionWatch.observe_ended_counted rfl hlast]
      exact ⟨⟨hdue, hlast⟩, h.counted now _ (by omega) rfl _⟩
    · right
      rw [SessionWatch.observe_ended_same rfl hlast]
      exact ⟨fun hboth => hlast hboth.2, h.not_missed rfl _⟩
  | refused _ hattempts =>
    right
    refine ⟨fun hboth => absurd hattempts.2.1 (not_le.2 hboth.1), fun hontime => ?_⟩
    have hearly := schedule.early_of_lost now hcount (show ConnectEvent.refused ≠ .lost by decide)
    exact absurd (hearly.symm.trans hontime.2) nofun
  | accepted _ hattempts =>
    right
    refine ⟨fun hboth => absurd hattempts.2.1 (not_le.2 hboth.1), fun hontime => ?_⟩
    have hearly := schedule.early_of_lost now hcount (show ConnectEvent.connected ≠ .lost by decide)
    exact absurd (hearly.symm.trans hontime.2) nofun
  | fleeting _ hattempts =>
    right
    refine ⟨fun hboth => absurd hattempts.2.1 (not_le.2 hboth.1), fun hontime => ?_⟩
    have hearly := schedule.early_of_lost now hcount (show ConnectEvent.connected ≠ .lost by decide)
    exact absurd (hearly.symm.trans hontime.2) nofun
  | dropped hsome => cases hsome
  | ended hsome => cases hsome
  | streams _ _ hsome => cases hsome
  | breaks _ hsome => cases hsome

theorem Paced.attempts_le (h : Paced s w) : w.reconnectAttempt ≤ 26 := by
  have hbound := h.bound
  have hattempt := h.attempt
  split_ifs at hbound <;> omega

/-- A poll either counts each loss and each attempt once and stays in step, or is off. -/
theorem Polled.step (hpaced : Paced s w) (hpolled : Polled now poll s w events s' w')
    (h : InStep schedule s w) :
    CountsOnce now poll s w ∧ InStep (schedule.follow now events) s' w' ∨
      ¬ CountsOnce now poll s w ∧ ¬ OnTime (schedule.follow now events) w' := by
  have hbound := hpaced.attempts_le
  rcases hpaced.state with ⟨hsome, hstate⟩ | ⟨hnone, hended⟩
  · obtain ⟨hattempt, hzero⟩ := hpaced.fresh hsome
    cases hpolled with
    | dropped _ hdead hrest => exact hrest.step_of_dropped hpaced hsome hdead h
    | ended _ halive hends =>
      have hcounts : CountsOnce now poll s w ↔ w.lastConnectionState ≠ .streaming := by
        unfold CountsOnce
        rw [hsome, halive, hends]
        rfl
      rw [hcounts]
      by_cases hlast : w.lastConnectionState = .streaming
      · exact .inr ⟨not_not.2 hlast, h.not_twice rfl (by omega) rfl hlast⟩
      · left
        rw [SessionWatch.observe_ended_same (w := w.scheduleReconnect now) rfl hlast]
        exact ⟨hlast, h.counted now _ (by omega) rfl _⟩
    | streams connection resume _ _ halive hends hafter =>
      have hcounts : CountsOnce now poll s w := by
        unfold CountsOnce
        rw [hsome, halive, hends]
        exact Or.inl hafter
      left
      have hquiet := h.quiet hsome
      rw [hstate]
      refine ⟨hcounts, ?_, h.early, ?_, fun _ => hquiet⟩
      · by_cases hlast : w.lastConnectionState = .streaming
        · rw [SessionWatch.observe_streaming_same hlast]
          exact h.attempts
        · rw [SessionWatch.observe_streaming_reset hlast]
          exact hzero.symm.trans h.attempts
      · intro time htime
        rw [show (schedule.follow now []).notBefore = none from hquiet] at htime
        cases htime
    | breaks resume _ halive hends hafter =>
      have hcounts : CountsOnce now poll s w ↔ w.lastConnectionState = .streaming := by
        unfold CountsOnce
        rw [hsome, halive, hends, hafter]
        simp
      rw [hcounts]
      by_cases hlast : w.lastConnectionState = .streaming
      · left
        rw [SessionWatch.observe_ended_counted rfl hlast]
        exact ⟨hlast, h.counted now _ (by omega) rfl _⟩
      · right
        rw [SessionWatch.observe_ended_same rfl hlast]
        exact ⟨hlast, h.not_missed rfl _⟩
    | idle hnone => rw [hnone] at hsome; cases hsome
    | refused hnone => rw [hnone] at hsome; cases hsome
    | accepted hnone => rw [hnone] at hsome; cases hsome
    | fleeting hnone => rw [hnone] at hsome; cases hsome
  · exact hpolled.step_of_none hnone hended (by omega) h

/-! ## Sessions stay paced -/

/-- The end of a poll that leaves the session without a connection. -/
theorem Paced.of_ended (hpolicy : s.reconnect = .default) (hnone : s.connection = none)
    (hended : s.state.ended = true) (hattempt : s.attempt ≤ 12)
    (hbound : w.reconnectAttempt + (if w.lastConnectionState = .streaming then 1 else 0) ≤
      2 * s.attempt + 2) : Paced s (w.observe s.state now) := by
  refine ⟨hpolicy, .inr ⟨hnone, hended⟩, fun hsome => ?_, hattempt, ?_⟩
  · rw [hnone] at hsome
    cases hsome
  · have hstate : s.state ≠ .streaming := by
      intro hstreaming
      rw [hstreaming] at hended
      cases hended
    rw [SessionWatch.observe_last, if_neg hstate]
    by_cases hlast : w.lastConnectionState = .streaming
    · rw [SessionWatch.observe_ended_counted hended hlast]
      rw [if_pos hlast] at hbound
      have hscheduled := SessionWatch.scheduleReconnect_attempt now
        (show w.reconnectAttempt ≤ 60000 by omega)
      exact hscheduled.trans_le hbound
    · rw [SessionWatch.observe_ended_same hended hlast]
      rw [if_neg hlast] at hbound
      exact hbound

theorem Paced.dropped (h : Paced s w) (hsome : s.connection.isSome = true) :
    Paced s.handleDisconnect w := by
  obtain ⟨hattempt, hzero⟩ := h.fresh hsome
  refine ⟨h.policy, .inr ⟨rfl, rfl⟩, nofun, h.attempt, ?_⟩
  rw [hzero]
  exact Nat.zero_le _

theorem Paced.polled (h : Paced s w) (hpolled : Polled now poll s w events s' w') :
    Paced s' w' := by
  induction hpolled with
  | @idle s w hnone hidle =>
    have hended : s.state.ended = true := by
      rcases h.state with ⟨hsome, -⟩ | ⟨-, hended⟩
      · rw [hnone] at hsome
        cases hsome
      · exact hended
    refine .of_ended h.policy hnone hended h.attempt ?_
    have hbound := h.bound
    split_ifs at hbound ⊢ <;> omega
  | @refused s w error hnone hattempts hconnect =>
    have hcount := SessionWatch.scheduleReconnect_attempt now
      (show w.reconnectAttempt ≤ 60000 from h.attempts_le.trans (by omega))
    have hattempt : (s.refused error).attempt = s.attempt + 1 :=
      Nat.min_eq_left (by have := hattempts.2.2; omega)
    have hlimit := hattempts.2.2
    refine .of_ended h.policy rfl (s.refused_state error) (by omega) ?_
    have hbound := h.bound
    rw [hcount, hattempt,
      show (w.scheduleReconnect now).lastConnectionState = w.lastConnectionState from rfl]
    split_ifs at hbound ⊢ <;> omega
  | @accepted s w connection hnone hattempts hconnect halive =>
    have hzero : (w.reset.observe .streaming now).reconnectAttempt = 0 := by
      by_cases hlast : w.lastConnectionState = .streaming
      · rw [SessionWatch.observe_streaming_same (w := w.reset) hlast]
        rfl
      · rw [SessionWatch.observe_streaming_reset (w := w.reset) hlast]
    refine ⟨h.policy, .inl ⟨rfl, rfl⟩, fun _ => ⟨rfl, hzero⟩, Nat.zero_le _, ?_⟩
    rw [hzero]
    exact Nat.zero_le _
  | @fleeting s w connection hnone hattempts hconnect hdead =>
    refine .of_ended h.policy rfl rfl (Nat.zero_le _) ?_
    show 0 + _ ≤ 2 * 0 + 2
    split_ifs <;> omega
  | dropped hsome hdead hrest ih => exact ih (h.dropped hsome)
  | @ended s w hsome halive hends =>
    obtain ⟨hattempt, hzero⟩ := h.fresh hsome
    have hcount := SessionWatch.scheduleReconnect_attempt now
      (show w.reconnectAttempt ≤ 60000 by omega)
    refine .of_ended h.policy rfl rfl h.attempt ?_
    rw [hcount, hzero]
    split_ifs <;> omega
  | @streams s w connection resume hsome hstate halive hends hafter =>
    obtain ⟨hattempt, hzero⟩ := h.fresh hsome
    have hcount : (w.observe s.state now).reconnectAttempt = 0 := by
      rw [hstate]
      by_cases hlast : w.lastConnectionState = .streaming
      · rw [SessionWatch.observe_streaming_same hlast]
        exact hzero
      · rw [SessionWatch.observe_streaming_reset hlast]
    refine ⟨h.policy, .inl ⟨rfl, hstate⟩, fun _ => ⟨hattempt, hcount⟩, h.attempt, ?_⟩
    rw [hcount]
    exact Nat.zero_le _
  | @breaks s w resume hsome halive hends hafter =>
    obtain ⟨hattempt, hzero⟩ := h.fresh hsome
    refine .of_ended h.policy rfl rfl h.attempt ?_
    rw [hzero]
    split_ifs <;> omega

/-- The schedule and the watch of a host after one poll. -/
theorem Polled.onTime_iff (hpolled : Polled now poll s w events s' w') (hpaced : Paced s w)
    (h : InStep schedule s w) :
    (OnTime (schedule.follow now events) w' ↔ CountsOnce now poll s w) ∧
      (CountsOnce now poll s w → InStep (schedule.follow now events) s' w') := by
  rcases hpolled.step hpaced h with ⟨hcounts, hstep⟩ | ⟨hcounts, hoff⟩
  · exact ⟨iff_of_true hstep.onTime hcounts, fun _ => hstep⟩
  · exact ⟨iff_of_false hoff hcounts, fun hcounted => absurd hcounted hcounts⟩

end

end Relay

end LlmNotch
