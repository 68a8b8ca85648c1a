import LlmNotch.RelayLoop
import LlmNotch.RelaySession
import LlmNotch.RelaySurvival

/-!
# Events from a remote spool to the host

A `Delivery` is one remote host : its spool, the relay at the other end of the connection, relays
of earlier connections that still run, and the session of the desktop, which reads a frame,
acknowledges it and then returns its event. The connection can break at any point; what was not
read is lost then, and a reconnect only hands the cursor to the new relay.

The watcher removes a frame when its event is in the channel of the relay, so an event is lost with
the channel, with the unread output, and with the acknowledgement. `LosesNothing` are the steps
that do none of this to an event of the spool. `events_kept` : in runs of such steps every event
that was ever placed is in the spool, on its way over a live connection, or returned.
-/

namespace LlmNotch

namespace Relay

/-! ## The system -/

/-- `placed` are all files that were ever placed in the spool. `handling` is the line that was
received and is not acknowledged, and `returned` has the origin of every event that a poll has
returned. -/
structure Delivery where
  spool : List SpoolFile
  placed : List SpoolFile
  current : Option Process
  orphans : List Process
  session : RelaySession
  handling : Option Line
  returned : List (Option String)

/-- `spawned` : a connect that fails has started a relay nevertheless. `torn` : a read that fails
has taken a part of the line, which is lost then. -/
inductive DeliveryAct where
  | place (name : String) (bytes : List UInt8)
  | relay (act : ProcessAct)
  | orphan (index : ℕ) (act : ProcessAct)
  | kill
  | disconnect
  | snapshot (alive : Except TransportError Bool)
  | receive (alive : Except TransportError Bool) (fault : Option TransportError) (torn : Bool)
  | acknowledge (fault : Option TransportError)
  | start (outcome : Except TransportError RelayHello) (spawned : Bool)
  | tickReconnect (jitterBasisPoints : ℤ) (outcome : Except TransportError RelayHello)
    (spawned : Bool)
  | stop

namespace Delivery

def initial (host : RemoteHostConfig) : Delivery where
  spool := []
  placed := []
  current := none
  orphans := []
  session := .withResume host .default 0
  handling := none
  returned := []

/-- The connection is gone, and what was written and not read with it. -/
def unlink (d : Delivery) : Delivery :=
  { d with current := none, orphans := d.current.toList ++ d.orphans }

/-- The session after a call; a connection that is dropped is closed. -/
def withSession (d : Delivery) (session : RelaySession) : Delivery :=
  if session.connection.isSome then { d with session := session }
  else { d with session := session }.unlink

/-- What `read_json_line` gives, unless it waits for a line. -/
def read (d : Delivery) (fault : Option TransportError) :
    Option (Except TransportError (Option RelayFrame)) :=
  match fault, d.current with
  | some error, _ => some (.error error)
  | none, none => some (.ok none)
  | none, some p => match p.output with
    | line :: _ => some (.ok (some line.frame))
    | [] => if p.main.running then none else some (.ok none)

/-- The first line of the output is gone. -/
def tear (d : Delivery) : Delivery :=
  { d with current := d.current.map fun p => { p with output := p.output.tail } }

/-- The session has received the first line of the output. -/
def received (d : Delivery) (session : RelaySession) : Delivery :=
  { d.tear with
    session := session
    handling := d.current.bind fun p => p.output.head? }

def receive (d : Delivery) (alive : Except TransportError Bool)
    (read : Except TransportError (Option RelayFrame)) : Delivery :=
  match d.session.receive alive read with
  | (.ok (some _), session) => d.received session
  | (_, session) => d.withSession session

/-- `handle_relay_frame` of a line : its event is returned if the acknowledgement is written. -/
def acknowledge (d : Delivery) (line : Line) (fault : Option TransportError) : Delivery :=
  match d.session.acknowledge line.frame.sequence fault with
  | (.ok _, session) =>
    { d with
      session := session
      handling := none
      returned := if line.frame.payload.isSessionEvent then d.returned ++ [line.origin]
        else d.returned }
  | (.error _, session) => { d with session := session, handling := none }

/-- A connect that succeeds starts a relay from the session's cursor. -/
def connected (d : Delivery) (session : RelaySession) : Delivery :=
  { d.unlink with session := session, current := some (.start d.session.resume) }

def refused (d : Delivery) (session : RelaySession) (spawned : Bool) : Delivery :=
  let d' := d.withSession session
  { d' with orphans := if spawned then .start d.session.resume :: d'.orphans else d'.orphans }

def start (d : Delivery) (outcome : Except TransportError RelayHello) (spawned : Bool) :
    Delivery :=
  match d.session.start outcome with
  | (.ok _, session) => d.connected session
  | (.error _, session) => d.refused session (spawned && d.session.startConnects)

def tickReconnect (d : Delivery) (jitterBasisPoints : ℤ)
    (outcome : Except TransportError RelayHello) (spawned : Bool) : Delivery :=
  match d.session.tickReconnect jitterBasisPoints outcome with
  | (.ok true, session, _) => d.connected session
  | (_, session, called) => d.refused session (spawned && called)

def step (parse : String → Option WireIngestFrame) (d : Delivery) : DeliveryAct → Option Delivery
  | .place name bytes =>
    if name ∈ d.placed.map SpoolFile.name then none
    else some { d with
      spool := d.spool ++ [⟨name, bytes⟩]
      placed := d.placed ++ [⟨name, bytes⟩] }
  | .relay act => d.current.bind fun p => (p.step parse d.spool act).map fun r =>
      { d with spool := r.1, current := some r.2 }
  | .orphan index act => d.orphans[index]?.bind fun p => (p.step parse d.spool act).map fun r =>
      { d with spool := r.1, orphans := d.orphans.set index r.2 }
  | .kill => d.current.map fun p => { d with current := some (p.leave (.failed "killed")) }
  | .disconnect => some d.unlink
  | .snapshot alive =>
    if d.handling.isSome then none else some (d.withSession (d.session.snapshot alive))
  | .receive alive fault torn =>
    if d.handling.isSome ∨ d.session.state ≠ .streaming then none
    else if alive = .ok true then (d.read fault).map fun read =>
      (if fault.isSome && torn then d.tear else d).receive alive read
    else some (d.receive alive (.ok none))
  | .acknowledge fault => d.handling.map fun line => d.acknowledge line fault
  | .start outcome spawned => if d.handling.isSome then none else some (d.start outcome spawned)
  | .tickReconnect jitter outcome spawned =>
    if d.handling.isSome then none else some (d.tickReconnect jitter outcome spawned)
  | .stop =>
    -- the session is removed, and the next start makes a new one
    if d.handling.isSome then none
    else some (d.withSession (.withResume d.session.host d.session.reconnect 0))

/-! ## Where an event is -/

/-- The event was sent to the relay of a live connection, and not read yet. -/
def Sent (d : Delivery) (name : String) : Prop :=
  ∃ p ∈ d.current, p.Sent name

/-- The event has left the spool and is not lost. -/
def Elsewhere (d : Delivery) (name : String) : Prop :=
  d.Sent name ∨ (∃ line ∈ d.handling, line.origin = some name) ∨ some name ∈ d.returned

/-- The event is in the spool, on its way to the host, or returned. -/
def Kept (parse : String → Option WireIngestFrame) (d : Delivery) (name : String) : Prop :=
  Process.InSpool parse d.spool name ∨ d.Elsewhere name

/-- No event of the spool is in the channel or the unread output of the relay. -/
def Quiet (d : Delivery) : Prop :=
  ∀ p ∈ d.current, (∀ hook ∈ p.hooks, hook.origin = none) ∧ ∀ line ∈ p.output, line.origin = none

/-- The watcher of the process is about to visit a frame of the spool with an event. -/
def TakesEvent (parse : String → Option WireIngestFrame) (spool : List SpoolFile) (p : Process)
    (act : ProcessAct) : Prop :=
  act = .visit none ∧ ∃ name rest, p.watcher = .visiting (name :: rest) ∧
    Process.InSpool parse spool name

/-- The first hook of the channel is dropped, or written as a line. -/
def Passes (p : Process) (hook : Hook) (now : Int64) (fault : Option String) : Prop :=
  ∃ payload, hook.result = .ok payload ∧ (normalizeHookPayload payload now = .ok none ∨
    ∃ event, normalizeHookPayload payload now = .ok (some event) ∧ fault = none ∧
      p.sequence + 1 < 2 ^ 64 ∧
      (RelayFrame.mk (p.sequence + 1) event).validateAfter p.sequence = .ok ())

/-- The main loop of the process ends in this step, at the end of the input or with an error. -/
def EndsLoop (p : Process) : ProcessAct → Prop
  | .drain now fault => ∃ hook ∈ p.hooks.head?, ¬ Passes p hook now fault
  | .check => (p.controls = [] ∧ p.reading = false) ∨
    ∃ control ∈ p.controls.head?, control = .ok .shutdown ∨ ∃ error, control = .error error
  | .beat due fault => due = true ∧ (fault.isSome = true ∨ 2 ^ 64 ≤ p.sequence + 1)
  | .list _ | .visit _ | .remove _ | .control _ => False

/-- Events are taken from the spool only by the relay of the connection while its main loop runs;
the loop ends only with no event in its channel, the connection only with none in the channel or
unread; and the acknowledgement of an event is written. -/
def LosesNothing (parse : String → Option WireIngestFrame) (d : Delivery) : DeliveryAct → Prop
  | .relay act => ∀ p ∈ d.current,
    (EndsLoop p act → ∀ hook ∈ p.hooks, hook.origin = none) ∧
    (TakesEvent parse d.spool p act → p.main.running = true)
  | .orphan index act => ∀ p, d.orphans[index]? = some p → ¬ TakesEvent parse d.spool p act
  | .kill => ∀ p ∈ d.current, ∀ hook ∈ p.hooks, hook.origin = none
  | .disconnect | .stop => d.Quiet
  | .snapshot alive => alive ≠ .ok true → d.Quiet
  | .receive alive fault torn => (alive = .ok false → d.Quiet) ∧
    (fault.isSome = true → torn = true → ∀ p ∈ d.current, ∀ line ∈ p.output.head?,
      line.origin = none)
  | .acknowledge fault => fault.isSome → ∀ line ∈ d.handling, line.origin = none
  | .place .. | .start .. | .tickReconnect .. => True

end Delivery

/-! ## The output of a relay -/

/-- The host, whose cursor is given, accepts every unread line; the lines are numbered upwards, and
those of the spool are session events. -/
structure Process.Wire (cursor : ℕ) (p : Process) : Prop where
  cursor_le : cursor ≤ p.sequence
  increasing : (p.output.map fun line => line.frame.sequence).Pairwise (· < ·)
  numbered : ∀ line ∈ p.output, cursor < line.frame.sequence ∧ line.frame.sequence ≤ p.sequence
  valid : ∀ line ∈ p.output, ∀ last, last < line.frame.sequence →
    line.frame.validateAfter last = .ok ()
  events : ∀ line ∈ p.output, line.origin.isSome = true → line.frame.payload.isSessionEvent = true

namespace Process.Wire

variable {cursor : ℕ} {parse : String → Option WireIngestFrame} {spool : List SpoolFile}
  {p q : Process} {r : List SpoolFile × Process} {act : ProcessAct}

section

variable (h : p.Wire cursor)

include h

theorem same (houtput : q.output = p.output) (hsequence : p.sequence ≤ q.sequence) :
    q.Wire cursor := by
  refine ⟨h.cursor_le.trans hsequence, ?_, ?_, ?_, ?_⟩ <;> rw [houtput]
  · exact h.increasing
  · exact fun line hline =>
      ⟨(h.numbered line hline).1, (h.numbered line hline).2.trans hsequence⟩
  · exact h.valid
  · exact h.events

theorem watcher (watcher : Watcher) : { p with watcher := watcher }.Wire cursor :=
  h.same rfl le_rfl

theorem send (hook : Hook) : (p.send hook).Wire cursor :=
  h.same (send_output p hook) (send_sequence p hook).ge

/-- A line is written with the next number. -/
theorem emit {payload : RelayPayload} {origin : Option String}
    (hvalid : (RelayFrame.mk (p.sequence + 1) payload).validateAfter p.sequence = .ok ())
    (hevent : origin.isSome = true → payload.isSessionEvent = true)
    (houtput : q.output = p.output ++ [⟨⟨p.sequence + 1, payload⟩, origin⟩])
    (hsequence : q.sequence = p.sequence + 1) : q.Wire cursor := by
  refine ⟨by have := h.cursor_le; omega, ?_, ?_, ?_, ?_⟩ <;> rw [houtput]
  · rw [List.map_append, List.pairwise_append]
    refine ⟨h.increasing, List.pairwise_singleton _ _, fun m hm n hn => ?_⟩
    obtain ⟨line, hline, rfl⟩ := List.mem_map.1 hm
    rw [List.mem_singleton.1 hn]
    exact Nat.lt_succ_of_le (h.numbered line hline).2
  · intro line hline
    rcases List.mem_append.1 hline with hline | hline
    · have hnumbered := h.numbered line hline
      omega
    · rw [List.mem_singleton.1 hline, hsequence]
      exact ⟨Nat.lt_succ_of_le h.cursor_le, le_rfl⟩
  · intro line hline last hlast
    rcases List.mem_append.1 hline with hline | hline
    · exact h.valid line hline last hlast
    · rw [List.mem_singleton.1 hline] at hlast ⊢
      exact validateAfter_ok_iff.2 ⟨hlast, (validateAfter_ok_iff.1 hvalid).2⟩
  · intro line hline
    rcases List.mem_append.1 hline with hline | hline
    · exact h.events line hline
    · rw [List.mem_singleton.1 hline]
      exact hevent

theorem visit (file : SpoolFile) (rest : List String) : (p.visit parse file rest).Wire cursor := by
  unfold Process.visit
  split
  · exact (h.watcher _).send _
  · exact h.watcher _
  · exact h.watcher _
  · exact (h.watcher _).send _

theorem control (input : Except String (Option RelayControl)) : (p.control input).Wire cursor := by
  unfold Process.control
  split
  · exact h.send _
  all_goals exact h.same rfl le_rfl

theorem drain (hsound : ∀ hook ∈ p.hooks, hook.Sound) {now : Int64} {fault : Option String}
    (hrunning : (p.drain now fault).main.running = true) : (p.drain now fault).Wire cursor := by
  obtain ⟨-, hp⟩ | ⟨hook, rest, payload, hhooks, hresult, ⟨-, hp⟩ | hevent⟩ :=
    drain_running hrunning
  · rw [hp]
    exact h.same rfl le_rfl
  · rw [hp]
    exact h.same rfl le_rfl
  · obtain ⟨event, hnormal, -, hvalid, hp⟩ := hevent
    rw [hp]
    refine h.emit hvalid (fun horigin => ?_) rfl rfl
    obtain ⟨other, hother, hok, hforwards⟩ :=
      hsound hook (by rw [hhooks]; exact List.mem_cons_self) horigin
    obtain rfl : payload = other := Except.ok.inj (hresult.symm.trans hother)
    obtain ⟨event', hnormal', his, -⟩ := forward_event hok hforwards now
    obtain rfl : event = event' := Option.some.inj (Except.ok.inj (hnormal.symm.trans hnormal'))
    exact his

/-- No step of the relay breaks this. -/
theorem step (hsound : ∀ hook ∈ p.hooks, hook.Sound) (hstep : p.step parse spool act = some r) :
    r.2.Wire cursor := by
  by_cases hleft : p.main.running = true ∧ r.2.main.running = false
  · obtain ⟨-, sequence, main, hle, hp⟩ := step_left hstep hleft.1 hleft.2
    rw [hp]
    exact h.same rfl hle
  have hgoes : p.main.running = true → r.2.main.running = true := fun hrunning =>
    Bool.eq_true_of_not_eq_false fun hstopped => hleft ⟨hrunning, hstopped⟩
  cases act with
  | list fault =>
    obtain ⟨-, -, ⟨-, hp⟩ | ⟨error, -, hp⟩⟩ := step_list hstep
    · rw [hp]
      exact h.watcher _
    · rw [hp]
      exact h.send _
  | visit fault =>
    obtain ⟨name, rest, -, -, ⟨-, file, -, -, hp⟩ | ⟨error, -, hp⟩⟩ := step_visit hstep
    · rw [hp]
      exact h.visit file rest
    · rw [hp]
      exact (h.watcher _).send _
  | remove fault =>
    obtain ⟨name, rest, -, -, hp⟩ := step_remove hstep
    rw [hp]
    exact h.watcher _
  | control input =>
    obtain ⟨-, rfl⟩ := guard_eq_some hstep
    exact h.control input
  | drain now fault =>
    obtain ⟨hmain, rfl⟩ := guard_eq_some hstep
    exact h.drain hsound (hgoes (by rw [hmain]; rfl))
  | check =>
    obtain ⟨hmain, rfl⟩ := guard_eq_some hstep
    obtain ⟨controls, hp⟩ := check_running (hgoes (by rw [hmain]; rfl))
    rw [hp]
    exact h.same rfl le_rfl
  | beat due fault =>
    obtain ⟨hmain, rfl⟩ := guard_eq_some hstep
    obtain hp | ⟨-, hvalid, hp⟩ := beat_running (hgoes (by rw [hmain]; rfl))
    · rw [hp]
      exact h.same rfl le_rfl
    · rw [hp]
      refine h.emit hvalid (fun horigin => ?_) rfl rfl
      cases horigin

/-- The host has read a line, and holds the rest. -/
theorem tail {line : Line} {rest : List Line} (houtput : p.output = line :: rest) :
    { p with output := rest }.Wire line.frame.sequence := by
  have hmem : ∀ other ∈ rest, other ∈ p.output := fun other hother => by
    rw [houtput]
    exact List.mem_cons_of_mem line hother
  have hincreasing := h.increasing
  rw [houtput, List.map_cons, List.pairwise_cons] at hincreasing
  have hfirst := h.numbered line (by rw [houtput]; exact List.mem_cons_self)
  refine ⟨hfirst.2, hincreasing.2,
    fun other hother => ⟨?_, (h.numbered other (hmem other hother)).2⟩,
    fun other hother => h.valid other (hmem other hother),
    fun other hother => h.events other (hmem other hother)⟩
  exact hincreasing.1 _ (List.mem_map_of_mem hother)

/-- The cursor of the host may stay behind. -/
theorem mono {earlier : ℕ} (hle : earlier ≤ cursor) : p.Wire earlier :=
  ⟨hle.trans h.cursor_le, h.increasing,
    fun line hline => ⟨hle.trans_lt (h.numbered line hline).1, (h.numbered line hline).2⟩,
    h.valid, h.events⟩

end

end Process.Wire

/-! ## The channel of a relay -/

namespace Process

variable {parse : String → Option WireIngestFrame} {spool : List SpoolFile} {p : Process}
  {r : List SpoolFile × Process} {act : ProcessAct}

theorem drain_passes {now : Int64} {fault : Option String}
    (hpasses : ∀ hook ∈ p.hooks.head?, Delivery.Passes p hook now fault)
    (hmain : p.main.running = true) : (p.drain now fault).main.running = true := by
  cases hhooks : p.hooks with
  | nil => simp [drain, hhooks, Main.running]
  | cons hook rest =>
    obtain ⟨payload, hresult, hnormal | ⟨event, hnormal, rfl, hsequence, hvalid⟩⟩ :=
      hpasses hook (by rw [hhooks]; rfl)
    · simp only [drain, hhooks, hresult, hnormal]
      exact hmain
    · simp only [drain, hhooks, hresult, hnormal]
      rw [emit_ok (p := { p with hooks := rest }) hook.origin hsequence hvalid]
      rfl

/-- Only the steps that end the main loop end it. -/
theorem endsLoop_of_left (hstep : p.step parse spool act = some r) (hmain : p.main.running = true)
    (hleft : r.2.main.running = false) : Delivery.EndsLoop p act := by
  obtain ⟨now, fault, rfl, rfl⟩ | ⟨rfl, rfl⟩ | ⟨due, fault, rfl, rfl⟩ :=
    step_leaves hstep hmain hleft
  · by_contra hends
    have hpasses : ∀ hook ∈ p.hooks.head?, Delivery.Passes p hook now fault :=
      fun hook hhook => by_contra fun hnot => hends ⟨hook, hhook, hnot⟩
    cases (drain_passes hpasses hmain).symm.trans hleft
  · simp only [check] at hleft
    split at hleft
    · next hcontrols =>
      split_ifs at hleft with hreading
      · cases hleft
      · exact Or.inl ⟨hcontrols, Bool.eq_false_of_not_eq_true hreading⟩
    · next error _ hcontrols => exact Or.inr ⟨_, by rw [hcontrols]; rfl, Or.inr ⟨error, rfl⟩⟩
    · next hcontrols => exact Or.inr ⟨_, by rw [hcontrols]; rfl, Or.inl rfl⟩
    · cases hleft
  · simp only [beat] at hleft
    split_ifs at hleft with hdue
    · refine ⟨hdue, ?_⟩
      cases hfault : fault with
      | some error => exact Or.inl rfl
      | none =>
        right
        by_contra hsequence
        have hlt : p.sequence + 1 < 2 ^ 64 := Nat.lt_of_not_le hsequence
        rw [hfault, emit_ok none hlt (validateAfter_heartbeat hlt)] at hleft
        cases hleft
    · cases hleft

/-- Nothing comes into the channel once the main loop was left. -/
theorem hooks_of_left (hmain : p.main.running = false)
    (hstep : p.step parse spool act = some r) : r.2.hooks = p.hooks := by
  have hsend : ∀ (q : Process) (hook : Hook), q.main = p.main → (q.send hook).hooks = q.hooks := by
    intro q hook hq
    rw [send, hq, if_neg (by rw [hmain]; exact Bool.false_ne_true)]
  have hrunning : p.main.running = true → r.2.hooks = p.hooks := by
    intro hrunning
    cases hmain.symm.trans hrunning
  cases act with
  | list fault =>
    obtain ⟨-, -, ⟨-, hp⟩ | ⟨error, -, hp⟩⟩ := step_list hstep
    · rw [hp]
    · rw [hp, hsend p _ rfl]
  | visit fault =>
    obtain ⟨name, rest, -, -, ⟨-, file, -, -, hp⟩ | ⟨error, -, hp⟩⟩ := step_visit hstep
    · rw [hp]
      unfold visit
      split
      · exact hsend _ _ rfl
      · rfl
      · rfl
      · exact hsend _ _ rfl
    · rw [hp]
      exact hsend { p with watcher := .visiting rest } _ rfl
  | remove fault =>
    obtain ⟨name, rest, -, -, hp⟩ := step_remove hstep
    rw [hp]
  | control input => exact hrunning (guard_eq_some hstep).1.2
  | drain now fault | check | beat due fault =>
    refine hrunning ?_
    rw [(guard_eq_some hstep).1]
    rfl

/-- The channel is empty once the main loop was left. -/
theorem closed_step (hclosed : p.main.running = false → p.hooks = [])
    (hstep : p.step parse spool act = some r) : r.2.main.running = false → r.2.hooks = [] := by
  intro hleft
  cases hmain : p.main.running with
  | true =>
    obtain ⟨-, sequence, main, -, hp⟩ := step_left hstep hmain hleft
    rw [hp]
    rfl
  | false => rw [hooks_of_left hmain hstep, hclosed hmain]

/-- What was sent is still there, if the loop does not end with it in its channel. -/
theorem sent_step {name : String} (h : p.Sent name) (hsound : ∀ hook ∈ p.hooks, hook.Sound)
    (hstep : p.step parse spool act = some r)
    (hends : Delivery.EndsLoop p act → ∀ hook ∈ p.hooks, hook.origin = none) : r.2.Sent name := by
  by_cases hleft : p.main.running = true ∧ r.2.main.running = false
  · obtain ⟨-, sequence, main, -, hp⟩ := step_left hstep hleft.1 hleft.2
    have hnone := hends (endsLoop_of_left hstep hleft.1 hleft.2)
    rcases h with hqueued | hwritten
    · obtain ⟨hook, hhook, horigin⟩ := List.mem_map.1 hqueued
      cases horigin.symm.trans (hnone hook hhook)
    · rw [hp]
      exact Or.inr hwritten
  · exact h.step hsound hstep fun hrunning =>
      Bool.eq_true_of_not_eq_false fun hstopped => hleft ⟨hrunning, hstopped⟩

end Process

/-! ## Sessions that keep or drop their connection -/

namespace RelaySession

/-- A call leaves the connection as it is, or drops it. -/
def Drops (s s' : RelaySession) : Prop :=
  s'.connection = none ∨ s'.connection = s.connection ∧ s'.state = s.state

variable {s s' : RelaySession}

theorem snapshot_drops (s : RelaySession) (alive : Except TransportError Bool) :
    s.Drops (s.snapshot alive) := by
  unfold snapshot
  split
  · exact Or.inr ⟨rfl, rfl⟩
  · exact Or.inl rfl
  · exact Or.inr ⟨rfl, rfl⟩

variable {outcome : Except TransportError RelayHello} {error : RelaySessionError} {jitter : ℤ}
  {called : Bool} {result : Except RelaySessionError Bool}

/-- A connect is made only without a connection in use, and gives one with the cursor. -/
theorem start_ok (hheld : s.connection.isSome = true → s.state = .streaming)
    (h : s.start outcome = (.ok (), s')) :
    s.connection = none ∧ s'.state = .streaming ∧ ∃ c ∈ s'.connection, c.cursor = s.resume := by
  unfold start at h
  split_ifs at h with hactive hfailed
  · cases h
  · cases h
  · split at h
    · next c hconnect =>
      cases h
      exact ⟨Option.not_isSome_iff_eq_none.1 fun hsome => hactive ⟨hheld hsome, hsome⟩, rfl, c, rfl,
        (SessionRun.connect_eq_ok hconnect).1⟩
    · cases h

theorem start_error (h : s.start outcome = (.error error, s')) : s.Drops s' := by
  unfold start at h
  split_ifs at h
  · cases h
    exact Or.inr ⟨rfl, rfl⟩
  · cases h
    exact Or.inr ⟨rfl, rfl⟩
  · split at h
    · cases h
    · cases h
      exact Or.inl rfl

/-- A connection in use is not dropped. -/
theorem start_error_none (hheld : s.connection.isSome = true → s.state = .streaming)
    (h : s.start outcome = (.error error, s')) (hnone : s'.connection = none) :
    s.connection = none := by
  unfold start at h
  split_ifs at h with hactive
  · cases h
    exact hnone
  · cases h
    exact hnone
  · exact Option.not_isSome_iff_eq_none.1 fun hsome => hactive ⟨hheld hsome, hsome⟩

theorem tickReconnect_ok (hheld : s.connection.isSome = true → s.state = .streaming)
    (h : s.tickReconnect jitter outcome = (.ok true, s', called)) :
    s.connection = none ∧ s'.state = .streaming ∧ ∃ c ∈ s'.connection, c.cursor = s.resume := by
  unfold tickReconnect at h
  split_ifs at h with hactive hfailed
  · cases h
  · cases h
  · split at h
    · cases h
    · dsimp only at h
      split at h
      · next c hconnect =>
        cases h
        exact ⟨Option.not_isSome_iff_eq_none.1 fun hsome => hactive (Or.inl (hheld hsome)), rfl, c,
          rfl, (SessionRun.connect_eq_ok hconnect).1⟩
      · cases h

theorem tickReconnect_other (hresult : result ≠ .ok true)
    (h : s.tickReconnect jitter outcome = (result, s', called)) : s.Drops s' := by
  unfold tickReconnect at h
  split_ifs at h
  · cases h
    exact Or.inr ⟨rfl, rfl⟩
  · cases h
    exact Or.inr ⟨rfl, rfl⟩
  · split at h
    · cases h
      exact Or.inr ⟨rfl, rfl⟩
    · dsimp only at h
      split at h
      · cases h
        exact (hresult rfl).elim
      · cases h
        exact Or.inl rfl

theorem tickReconnect_none (hheld : s.connection.isSome = true → s.state = .streaming)
    (h : s.tickReconnect jitter outcome = (result, s', called)) (hnone : s'.connection = none) :
    s.connection = none := by
  unfold tickReconnect at h
  split_ifs at h with hactive
  · cases h
    exact hnone
  · cases h
    exact hnone
  · exact Option.not_isSome_iff_eq_none.1 fun hsome => hactive (Or.inl (hheld hsome))

/-- A call of `receive` that returns no frame. -/
theorem receive_drops {alive : Except TransportError Bool}
    {read : Except TransportError (Option RelayFrame)}
    {result : Except RelaySessionError (Option RelayFrame)}
    (hresult : ∀ frame, result ≠ .ok (some frame)) (h : s.receive alive read = (result, s')) :
    s.Drops s' := by
  unfold receive at h
  split at h
  · cases h
    exact Or.inr ⟨rfl, rfl⟩
  · next c hc =>
    split at h
    · cases h
      exact Or.inr ⟨rfl, rfl⟩
    · cases h
      exact Or.inl rfl
    · split at h
      · next c' hreceive =>
        cases h
        rw [SessionRun.receive_error hreceive, ← hc]
        exact Or.inr ⟨rfl, rfl⟩
      · cases h
        exact Or.inl rfl
      · next frame _ _ =>
        cases h
        exact (hresult frame rfl).elim

end RelaySession

/-! ## The connection -/

namespace Delivery

variable {parse : String → Option WireIngestFrame} {d t : Delivery}

/-- The session and the relay of its connection agree on what was read, and a line that is handled
can be acknowledged. -/
structure Connected (d : Delivery) : Prop where
  held : d.session.connection.isSome = true → d.session.state = .streaming
  sound : ∀ p ∈ d.current, ∀ hook ∈ p.hooks, hook.Sound
  closed : ∀ p ∈ d.current, p.main.running = false → p.hooks = []
  wire : ∀ p ∈ d.current, ∃ c ∈ d.session.connection, p.Wire c.cursor
  handled : ∀ line ∈ d.handling,
    (line.origin.isSome = true → line.frame.payload.isSessionEvent = true) ∧
      ∃ c ∈ d.session.connection, line.frame.sequence ≤ c.cursor

theorem Connected.current_none (h : d.Connected) (hnone : d.session.connection = none) :
    d.current = none := by
  cases hcurrent : d.current with
  | none => rfl
  | some p =>
    obtain ⟨c, hc, -⟩ := h.wire p hcurrent
    rw [hnone] at hc
    cases hc

/-- Without a relay nothing can be lost. -/
theorem Connected.quiet (h : d.Connected) (hnone : d.session.connection = none) : d.Quiet := by
  intro p hp
  rw [h.current_none hnone] at hp
  cases hp

variable {p : Process} {r : List SpoolFile × Process} {alive : Except TransportError Bool}
  {fault : Option TransportError}

theorem Connected.relay (h : d.Connected) {act : ProcessAct} (hp : p ∈ d.current)
    (hstep : p.step parse d.spool act = some r) :
    Connected { d with spool := r.1, current := some r.2 } := by
  obtain ⟨c, hc, hwire⟩ := h.wire p hp
  refine ⟨h.held, ?_, ?_, ?_, h.handled⟩
  · rintro q ⟨⟩
    exact Process.sound_step (h.sound p hp) hstep
  · rintro q ⟨⟩
    exact Process.closed_step (h.closed p hp) hstep
  · rintro q ⟨⟩
    exact ⟨c, hc, hwire.step (h.sound p hp) hstep⟩

theorem Connected.kill (h : d.Connected) (hp : p ∈ d.current) (main : Main) :
    Connected { d with current := some (p.leave main) } := by
  obtain ⟨c, hc, hwire⟩ := h.wire p hp
  refine ⟨h.held, ?_, ?_, ?_, h.handled⟩
  · rintro q ⟨⟩ hook hhook
    cases hhook
  · rintro q ⟨⟩ -
    rfl
  · rintro q ⟨⟩
    exact ⟨c, hc, hwire.same rfl le_rfl⟩

/-- The relay of the connection is gone. -/
theorem Connected.unlink (h : d.Connected) : d.unlink.Connected := by
  refine ⟨h.held, ?_, ?_, ?_, h.handled⟩
  all_goals
    intro p hp
    cases hp

theorem Connected.withSession (h : d.Connected) (hidle : d.handling = none)
    {session : RelaySession} (hdrops : d.session.Drops session) :
    (d.withSession session).Connected := by
  unfold Delivery.withSession
  split_ifs with hsome
  · obtain hnone | ⟨hconnection, hstate⟩ := hdrops
    · rw [hnone] at hsome
      cases hsome
    · refine ⟨?_, h.sound, h.closed, ?_, ?_⟩
      · dsimp only
        rw [hconnection, hstate]
        exact h.held
      · dsimp only
        rw [hconnection]
        exact h.wire
      · dsimp only
        rw [hidle]
        rintro line ⟨⟩
  · refine ⟨fun hheld => (hsome hheld).elim, ?_, ?_, ?_, ?_⟩
    iterate 3
      intro p hp
      cases hp
    intro line hline
    rw [Delivery.unlink, hidle] at hline
    cases hline

/-- A new relay starts at the cursor of the session. -/
theorem Connected.connected (hidle : d.handling = none) {session : RelaySession}
    (hstate : session.state = .streaming)
    (hcursor : ∃ c ∈ session.connection, c.cursor = d.session.resume) :
    (d.connected session).Connected := by
  obtain ⟨c, hc, hresume⟩ := hcursor
  refine ⟨fun _ => hstate, ?_, ?_, ?_, ?_⟩
  · rintro p ⟨⟩ hook hhook
    cases hhook
  · rintro p ⟨⟩ hleft
    cases hleft
  · rintro p ⟨⟩
    refine ⟨c, hc, hresume.le, List.Pairwise.nil, ?_, ?_, ?_⟩
    all_goals
      intro line hline
      cases hline
  · intro line hline
    rw [Delivery.connected, Delivery.unlink, hidle] at hline
    cases hline

theorem Connected.refused (h : d.Connected) (hidle : d.handling = none) {session : RelaySession}
    (hdrops : d.session.Drops session) (spawned : Bool) : (d.refused session spawned).Connected :=
  let h' := h.withSession hidle hdrops
  ⟨h'.held, h'.sound, h'.closed, h'.wire, h'.handled⟩

theorem Connected.tear (h : d.Connected) : d.tear.Connected := by
  cases hcurrent : d.current with
  | none =>
    have htear : d.tear = d := by
      rw [Delivery.tear, hcurrent]
      cases d
      cases hcurrent
      rfl
    rwa [htear]
  | some p =>
    obtain ⟨c, hc, hwire⟩ := h.wire p hcurrent
    refine ⟨h.held, ?_, ?_, ?_, h.handled⟩
    all_goals
      rw [Delivery.tear, hcurrent]
      rintro q ⟨⟩
    · exact h.sound p hcurrent
    · exact h.closed p hcurrent
    · refine ⟨c, hc, ?_⟩
      dsimp only
      cases houtput : p.output with
      | nil => exact hwire.same houtput.symm le_rfl
      | cons line rest =>
        have hfirst := hwire.numbered line (by rw [houtput]; exact List.mem_cons_self)
        exact (hwire.tail houtput).mono hfirst.1.le

/-- The host accepts the first line of the output, which is then handled. -/
theorem Connected.receive_line (h : d.Connected) (hp : p ∈ d.current) {line : Line}
    {rest : List Line} (houtput : p.output = line :: rest) :
    ∃ session, d.receive (.ok true) (.ok (some line.frame)) = d.received session ∧
      (d.received session).Connected := by
  obtain ⟨c, hc, hwire⟩ := h.wire p hp
  have hmem : line ∈ p.output := by
    rw [houtput]
    exact List.mem_cons_self
  have hvalid := hwire.valid line hmem c.cursor (hwire.numbered line hmem).1
  have hreceive : ∃ session, d.session.receive (.ok true) (.ok (some line.frame)) =
      (.ok (some line.frame), session) ∧
      session.connection = some { c with cursor := line.frame.sequence } ∧
      session.state = d.session.state := by
    refine ⟨{ d.session with
      connection := some { c with cursor := line.frame.sequence }
      resume := if d.session.resume < line.frame.sequence then line.frame.sequence
        else d.session.resume }, ?_, rfl, rfl⟩
    simp only [RelaySession.receive, Option.mem_def.1 hc, Connection.receive, hvalid]
  obtain ⟨session, hsession, hconnection, hstate⟩ := hreceive
  refine ⟨session, ?_, ?_⟩
  · simp only [Delivery.receive, hsession]
  have hcurrent : (d.received session).current = some { p with output := rest } := by
    simp only [received, Delivery.tear, Option.mem_def.1 hp, Option.map_some, houtput,
      List.tail_cons]
  have hhandling : (d.received session).handling = some line := by
    simp only [received, Option.mem_def.1 hp, Option.bind_some, houtput, List.head?_cons]
  refine ⟨fun _ => ?_, ?_, ?_, ?_, ?_⟩
  · exact hstate.trans (h.held (by rw [Option.mem_def.1 hc]; rfl))
  · rw [hcurrent]
    rintro q ⟨⟩
    exact h.sound p hp
  · rw [hcurrent]
    rintro q ⟨⟩
    exact h.closed p hp
  · rw [hcurrent]
    rintro q ⟨⟩
    exact ⟨_, hconnection, hwire.tail houtput⟩
  · rw [hhandling]
    rintro other ⟨⟩
    exact ⟨hwire.events line hmem, _, hconnection, le_rfl⟩

/-- The acknowledgement of the line is accepted, unless its write fails. -/
theorem Connected.acknowledge (h : d.Connected) {line : Line} (hline : line ∈ d.handling)
    (fault : Option TransportError) :
    (d.acknowledge line fault).Connected ∧
      (d.acknowledge line fault).returned =
        (if fault = none ∧ line.frame.payload.isSessionEvent then d.returned ++ [line.origin]
          else d.returned) := by
  obtain ⟨-, c, hc, hle⟩ := h.handled line hline
  have hsame : ∀ session : RelaySession, session.connection = d.session.connection →
      session.state = d.session.state → ∀ returned,
      Connected { d with session := session, handling := none, returned := returned } := by
    intro session hconnection hstate returned
    refine ⟨?_, h.sound, h.closed, ?_, ?_⟩
    · dsimp only
      rw [hconnection, hstate]
      exact h.held
    · dsimp only
      rw [hconnection]
      exact h.wire
    · rintro other ⟨⟩
  cases hfault : fault with
  | some error =>
    have hack : d.session.acknowledge line.frame.sequence (some error) =
        (.error (.transport error), d.session) := by
      simp only [RelaySession.acknowledge, Option.mem_def.1 hc, Connection.acknowledge,
        if_neg (Nat.not_lt_of_le hle)]
    simp only [Delivery.acknowledge, hack]
    exact ⟨hsame _ rfl rfl _, by simp⟩
  | none =>
    have hack : ∃ session, d.session.acknowledge line.frame.sequence none = (.ok (), session) ∧
        session.connection = d.session.connection ∧ session.state = d.session.state := by
      refine ⟨if d.session.resume < line.frame.sequence then
        { d.session with resume := line.frame.sequence } else d.session, ?_, ?_, ?_⟩
      · simp only [RelaySession.acknowledge, Option.mem_def.1 hc, Connection.acknowledge,
          if_neg (Nat.not_lt_of_le hle)]
      · split_ifs <;> rfl
      · split_ifs <;> rfl
    obtain ⟨session, hack, hconnection, hstate⟩ := hack
    simp only [Delivery.acknowledge, hack]
    exact ⟨hsame _ hconnection hstate _, by simp⟩

/-! ## Every event is accounted for -/

def processes (d : Delivery) : List Process :=
  d.current.toList ++ d.orphans

/-- Every event that was placed is kept, and what a watcher is about to remove has been sent. -/
structure Accounted (parse : String → Option WireIngestFrame) (d : Delivery) : Prop where
  names : (d.placed.map SpoolFile.name).Nodup
  spool : d.spool.Sublist d.placed
  kept : ∀ file ∈ d.placed, hasFrameExtension file.name = true → Forwardable parse file.bytes →
    d.Kept parse file.name
  removing : ∀ p ∈ d.processes, ∀ name rest, p.watcher = .removing name rest →
    name ∈ d.placed.map SpoolFile.name ∧
      (Process.InSpool parse d.spool name → d.Elsewhere name)

theorem Accounted.spoolNames (h : d.Accounted parse) : (d.spool.map SpoolFile.name).Nodup :=
  h.names.sublist (h.spool.map SpoolFile.name)

/-- A step that leaves the spool alone, and loses nothing of what has left it. -/
theorem Accounted.same (h : d.Accounted parse) (hspool : t.spool = d.spool)
    (hplaced : t.placed = d.placed) (helsewhere : ∀ name, d.Elsewhere name → t.Elsewhere name)
    (hwatcher : ∀ p ∈ t.processes, ∀ name rest, p.watcher = .removing name rest →
      ∃ q ∈ d.processes, q.watcher = .removing name rest) : t.Accounted parse := by
  refine ⟨by rw [hplaced]; exact h.names, by rw [hspool, hplaced]; exact h.spool, ?_, ?_⟩
  · rw [hplaced]
    intro file hfile hext hforward
    refine (h.kept file hfile hext hforward).imp (fun hin => ?_) (helsewhere file.name)
    rwa [hspool]
  · intro p hp name rest hremoving
    obtain ⟨q, hq, hremoving'⟩ := hwatcher p hp name rest hremoving
    obtain ⟨hname, hsent⟩ := h.removing q hq name rest hremoving'
    rw [hplaced, hspool]
    exact ⟨hname, fun hin => helsewhere name (hsent hin)⟩

/-- A step of a process. -/
theorem Accounted.act (h : d.Accounted parse) {act : ProcessAct} (hp : p ∈ d.processes)
    (hstep : p.step parse d.spool act = some r) (hspool : t.spool = r.1)
    (hplaced : t.placed = d.placed) (helsewhere : ∀ name, d.Elsewhere name → t.Elsewhere name)
    (hprocesses : ∀ q ∈ t.processes, q = r.2 ∨ q ∈ d.processes)
    (htakes : TakesEvent parse d.spool p act →
      p.main.running = true ∧ ∀ name, r.2.Sent name → t.Elsewhere name) : t.Accounted parse := by
  have hsublist := Process.spool_sublist hstep
  refine ⟨by rw [hplaced]; exact h.names, by rw [hspool, hplaced]; exact hsublist.trans h.spool,
    ?_, ?_⟩
  · rw [hplaced]
    intro file hfile hext hforward
    obtain hin | hother := h.kept file hfile hext hforward
    · obtain hin' | ⟨rest, hremoving⟩ := Process.inSpool_step hstep hin
      · exact Or.inl (hspool ▸ hin')
      · exact Or.inr (helsewhere _ ((h.removing p hp _ rest hremoving).2 hin))
    · exact Or.inr (helsewhere _ hother)
  · rw [hplaced, hspool]
    intro q hq name rest hremoving
    have hold : ∀ q ∈ d.processes, q.watcher = .removing name rest →
        name ∈ d.placed.map SpoolFile.name ∧
          (Process.InSpool parse r.1 name → t.Elsewhere name) := by
      intro q hq hremoving
      obtain ⟨hname, hsent⟩ := h.removing q hq name rest hremoving
      refine ⟨hname, fun hin => helsewhere name (hsent ?_)⟩
      exact hin.mono fun _ hmem => hsublist.subset hmem
    rcases hprocesses q hq with rfl | hq
    · refine ⟨?_, fun hin => ?_⟩
      · obtain hbefore | ⟨-, -, -, file, hfile, rfl, -⟩ := Process.removing_of_step hstep hremoving
        · exact (hold p hp hbefore).1
        · exact List.mem_map_of_mem (h.spool.subset hfile)
      · obtain ⟨hbefore, -⟩ | ⟨hact, hwatcher, hinSpool, hsent⟩ :=
          Process.removing_step h.spoolNames hstep hremoving hin
        · exact (hold p hp hbefore).2 hin
        · obtain ⟨hrunning, helse⟩ := htakes ⟨hact, name, rest, hwatcher, hinSpool⟩
          exact helse name (hsent hrunning)
    · exact hold q hq hremoving

theorem Quiet.not_sent (h : d.Quiet) (name : String) : ¬ d.Sent name := by
  rintro ⟨p, hp, hqueued | hwritten⟩
  · obtain ⟨hook, hhook, horigin⟩ := List.mem_map.1 hqueued
    cases horigin.symm.trans ((h p hp).1 hook hhook)
  · obtain ⟨line, hline, horigin⟩ := List.mem_map.1 hwritten
    cases horigin.symm.trans ((h p hp).2 line hline)

section

variable (h : d.Accounted parse)

include h

theorem Accounted.place {name : String} (bytes : List UInt8)
    (hnew : name ∉ d.placed.map SpoolFile.name) :
    Accounted parse { d with
      spool := d.spool ++ [⟨name, bytes⟩]
      placed := d.placed ++ [⟨name, bytes⟩] } := by
  refine ⟨?_, h.spool.append (List.Sublist.refl _), ?_, ?_⟩
  · simp only [List.map_append, List.map_cons, List.map_nil]
    exact h.names.append (List.nodup_singleton name) (by simpa using hnew)
  · intro file hfile hext hforward
    rcases List.mem_append.1 hfile with hfile | hfile
    · exact (h.kept file hfile hext hforward).imp_left fun hin =>
        hin.mono fun _ hmem => List.mem_append_left _ hmem
    · exact Or.inl ⟨hext, file, List.mem_append_right _ hfile, rfl, hforward⟩
  · intro p hp other rest hremoving
    obtain ⟨hother, hsent⟩ := h.removing p hp other rest hremoving
    refine ⟨by simp [hother], ?_⟩
    rintro ⟨hext, file, hfile, hname, hforward⟩
    rcases List.mem_append.1 hfile with hfile | hfile
    · exact hsent ⟨hext, file, hfile, hname, hforward⟩
    · -- no watcher knows a name that was never placed
      obtain rfl := List.mem_singleton.1 hfile
      subst hname
      exact (hnew hother).elim

theorem Accounted.unlink (hquiet : d.Quiet) : d.unlink.Accounted parse := by
  refine h.same rfl rfl (fun name helse => ?_) fun p hp name rest hremoving => ⟨p, hp, hremoving⟩
  exact helse.imp_left fun hsent => (hquiet.not_sent name hsent).elim

theorem Accounted.session (session : RelaySession) :
    Accounted parse { d with session := session } :=
  ⟨h.names, h.spool, h.kept, h.removing⟩

theorem Accounted.withSession {session : RelaySession}
    (hquiet : session.connection = none → d.Quiet) : (d.withSession session).Accounted parse := by
  unfold Delivery.withSession
  split_ifs with hsome
  · exact h.session session
  · exact (h.session session).unlink (hquiet (Option.not_isSome_iff_eq_none.1 hsome))

/-- A new relay has no frame to remove. -/
theorem Accounted.connected (hquiet : d.Quiet) (session : RelaySession) :
    (d.connected session).Accounted parse := by
  refine (h.unlink hquiet).same rfl rfl (fun name helse => ?_) fun p hp name rest hremoving => ?_
  · refine helse.imp_left ?_
    rintro ⟨p, hp, -⟩
    cases hp
  · rcases List.mem_append.1 hp with hp | hp
    · rw [List.mem_singleton.1 hp] at hremoving
      cases hremoving
    · exact ⟨p, hp, hremoving⟩

theorem Accounted.refused {session : RelaySession} (hquiet : session.connection = none → d.Quiet)
    (spawned : Bool) : (d.refused session spawned).Accounted parse := by
  refine (h.withSession hquiet).same rfl rfl (fun _ helse => helse)
    fun p hp name rest hremoving => ?_
  unfold Delivery.refused processes at hp
  dsimp only at hp
  rcases List.mem_append.1 hp with hp | hp
  · exact ⟨p, List.mem_append_left _ hp, hremoving⟩
  · split_ifs at hp
    · rcases List.mem_cons.1 hp with rfl | hp
      · cases hremoving
      · exact ⟨p, List.mem_append_right _ hp, hremoving⟩
    · exact ⟨p, List.mem_append_right _ hp, hremoving⟩

/-- The first line is taken from the output, to be handled, or it holds no event. -/
theorem Accounted.tear (handling : Option Line)
    (hhandling : ∀ p ∈ d.current, ∀ line ∈ p.output.head?,
      line.origin = none ∨ handling = some line) (hidle : d.handling = none) :
    Accounted parse { d.tear with handling := handling } := by
  refine h.same rfl rfl (fun name helse => ?_) fun p hp name rest hremoving => ?_
  · obtain ⟨p, hp, hsent⟩ | ⟨line, hline, -⟩ | hreturned := helse
    · have hrest : p.Sent name → { p with output := p.output.tail }.Sent name ∨
          ∃ line ∈ handling, line.origin = some name := by
        rintro (hqueued | hwritten)
        · exact Or.inl (Or.inl hqueued)
        · cases houtput : p.output with
          | nil =>
            rw [houtput] at hwritten
            cases hwritten
          | cons line rest =>
            rw [houtput, List.map_cons, List.mem_cons] at hwritten
            rcases hwritten with horigin | hwritten
            · obtain hnone | hsome := hhandling p hp line (by rw [houtput]; rfl)
              · cases horigin.trans hnone
              · exact Or.inr ⟨line, hsome, horigin.symm⟩
            · exact Or.inl (Or.inr hwritten)
      obtain hsent | hline := hrest hsent
      · refine Or.inl ⟨_, ?_, hsent⟩
        rw [Delivery.tear, Option.mem_def.1 hp]
        rfl
      · exact Or.inr (Or.inl hline)
    · rw [hidle] at hline
      cases hline
    · exact Or.inr (Or.inr hreturned)
  · rcases List.mem_append.1 hp with hp | hp
    · obtain ⟨q, hq, rfl⟩ := Option.map_eq_some_iff.1 (Option.mem_toList.1 hp)
      exact ⟨q, List.mem_append_left _ (Option.mem_toList.2 hq), hremoving⟩
    · exact ⟨p, List.mem_append_right _ hp, hremoving⟩

end

/-! ## Runs -/

/-- What every step that loses nothing keeps. -/
structure Sound (parse : String → Option WireIngestFrame) (d : Delivery) : Prop where
  connected : d.Connected
  accounted : d.Accounted parse

section

variable (h : d.Sound parse)

include h

theorem Sound.relay {act : ProcessAct} (hok : LosesNothing parse d (.relay act))
    (hstep : d.step parse (.relay act) = some t) : t.Sound parse := by
  obtain ⟨p, hp, hmap⟩ := Option.bind_eq_some_iff.1 hstep
  obtain ⟨r, hr, rfl⟩ := Option.map_eq_some_iff.1 hmap
  obtain ⟨hends, htakes⟩ := hok p hp
  refine ⟨h.connected.relay hp hr, h.accounted.act (p := p) ?_ hr rfl rfl ?_ ?_ ?_⟩
  · exact List.mem_append_left _ (Option.mem_toList.2 hp)
  · intro name helse
    refine helse.imp_left ?_
    rintro ⟨q, hq, hsent⟩
    obtain rfl : p = q := Option.some.inj (hp.symm.trans hq)
    exact ⟨r.2, rfl, Process.sent_step hsent (h.connected.sound p hp) hr hends⟩
  · intro q hq
    rcases List.mem_append.1 hq with hq | hq
    · exact Or.inl (List.mem_singleton.1 hq)
    · exact Or.inr (List.mem_append_right _ hq)
  · exact fun htake => ⟨htakes htake, fun name hsent => Or.inl ⟨r.2, rfl, hsent⟩⟩

theorem Sound.orphan {index : ℕ} {act : ProcessAct}
    (hok : LosesNothing parse d (.orphan index act))
    (hstep : d.step parse (.orphan index act) = some t) : t.Sound parse := by
  obtain ⟨p, hp, hmap⟩ := Option.bind_eq_some_iff.1 hstep
  obtain ⟨r, hr, rfl⟩ := Option.map_eq_some_iff.1 hmap
  refine ⟨?_, h.accounted.act (p := p) ?_ hr rfl rfl (fun _ helse => helse) ?_
    fun htake => (hok p hp htake).elim⟩
  · exact ⟨h.connected.held, h.connected.sound, h.connected.closed, h.connected.wire,
      h.connected.handled⟩
  · exact List.mem_append_right _ (List.mem_of_getElem? hp)
  · intro q hq
    rcases List.mem_append.1 hq with hq | hq
    · exact Or.inr (List.mem_append_left _ hq)
    · exact (List.mem_or_eq_of_mem_set hq).symm.imp_right (List.mem_append_right _)

theorem Sound.kill (hok : LosesNothing parse d .kill) (hstep : d.step parse .kill = some t) :
    t.Sound parse := by
  obtain ⟨p, hp, rfl⟩ := Option.map_eq_some_iff.1 hstep
  refine ⟨h.connected.kill hp _, h.accounted.same rfl rfl ?_ ?_⟩
  · intro name helse
    refine helse.imp_left ?_
    rintro ⟨q, hq, hqueued | hwritten⟩
    · obtain ⟨hook, hhook, horigin⟩ := List.mem_map.1 hqueued
      cases horigin.symm.trans (hok q hq hook hhook)
    · obtain rfl : p = q := Option.some.inj (hp.symm.trans hq)
      exact ⟨_, rfl, Or.inr hwritten⟩
  · intro q hq name rest hremoving
    rcases List.mem_append.1 hq with hq | hq
    · rw [List.mem_singleton.1 hq] at hremoving
      exact ⟨p, List.mem_append_left _ (Option.mem_toList.2 hp), hremoving⟩
    · exact ⟨q, List.mem_append_right _ hq, hremoving⟩

theorem Sound.withSession (hidle : d.handling = none) {session : RelaySession}
    (hdrops : d.session.Drops session) (hquiet : session.connection = none → d.Quiet) :
    (d.withSession session).Sound parse :=
  ⟨h.connected.withSession hidle hdrops, h.accounted.withSession hquiet⟩

/-- A call that returns no frame drops the connection only if the relay has ended. -/
theorem Sound.receive_none (hidle : d.handling = none)
    {read : Except TransportError (Option RelayFrame)} (hread : ∀ frame, read ≠ .ok (some frame))
    (hquiet : alive = .ok false ∨ (alive = .ok true ∧ read = .ok none) → d.Quiet) :
    (d.receive alive read).Sound parse := by
  have hnone : ∀ frame, (d.session.receive alive read).1 ≠ .ok (some frame) := by
    intro frame hframe
    unfold RelaySession.receive at hframe
    split at hframe
    · cases hframe
    · split at hframe
      · cases hframe
      · cases hframe
      · cases read with
        | error error => cases hframe
        | ok line =>
          cases line with
          | none => cases hframe
          | some line => exact hread line rfl
  have hsame : (d.session.receive alive read).2.connection = none → d.Quiet := by
    intro hconnection
    cases hc : d.session.connection with
    | none => exact h.connected.quiet hc
    | some c =>
      simp only [RelaySession.receive, hc] at hconnection
      cases alive with
      | error error =>
        cases hc.symm.trans hconnection
      | ok up =>
        cases up with
        | false => exact hquiet (Or.inl rfl)
        | true =>
          cases read with
          | error error => cases hconnection
          | ok line =>
            cases line with
            | none => exact hquiet (Or.inr ⟨rfl, rfl⟩)
            | some line => exact (hread line rfl).elim
  have hreceive : d.receive alive read = d.withSession (d.session.receive alive read).2 := by
    unfold Delivery.receive
    split
    · next frame session hsession => exact (hnone frame (by rw [hsession])).elim
    · next session _ hsession => rw [hsession]
  rw [hreceive]
  exact h.withSession hidle (RelaySession.receive_drops hnone rfl) hsame

theorem Sound.tear (hidle : d.handling = none)
    (hnone : ∀ p ∈ d.current, ∀ line ∈ p.output.head?, line.origin = none) : d.tear.Sound parse :=
  ⟨h.connected.tear, h.accounted.tear d.handling
    (fun p hp line hline => Or.inl (hnone p hp line hline)) hidle⟩

theorem Sound.receive {torn : Bool} (hok : LosesNothing parse d (.receive alive fault torn))
    (hstep : d.step parse (.receive alive fault torn) = some t) : t.Sound parse := by
  obtain ⟨hquiet, htorn⟩ := hok
  obtain ⟨hready, hstep⟩ := Option.ite_none_left_eq_some.1 hstep
  have hidle : d.handling = none :=
    Option.not_isSome_iff_eq_none.1 fun hsome => hready (Or.inl hsome)
  by_cases halive : alive = .ok true
  · rw [if_pos halive] at hstep
    obtain ⟨read, hread, rfl⟩ := Option.map_eq_some_iff.1 hstep
    subst halive
    cases fault with
    | some error =>
      obtain rfl : Except.error error = read := Option.some.inj hread
      split_ifs with hboth
      · obtain ⟨-, htrue⟩ := Bool.and_eq_true_iff.1 hboth
        exact (h.tear hidle (htorn rfl htrue)).receive_none hidle (by rintro frame ⟨⟩) (by simp)
      · exact h.receive_none hidle (by rintro frame ⟨⟩) (by simp)
    | none =>
      rw [Option.isSome_none, Bool.false_and, if_neg Bool.false_ne_true]
      cases hcurrent : d.current with
      | none =>
        have hread' : .ok none = read := by simpa [Delivery.read, hcurrent] using hread
        subst hread'
        refine h.receive_none hidle (by rintro frame ⟨⟩) fun _ p hp => ?_
        rw [hcurrent] at hp
        cases hp
      | some p =>
        cases houtput : p.output with
        | cons line rest =>
          have hread' : .ok (some line.frame) = read := by
            simpa [Delivery.read, hcurrent, houtput] using hread
          subst hread'
          obtain ⟨session, hreceive, hconnected⟩ := h.connected.receive_line hcurrent houtput
          rw [hreceive]
          have htear := h.accounted.tear (d.current.bind fun p => p.output.head?)
            (fun q hq other hother => Or.inr (by rw [Option.mem_def.1 hq]; exact hother)) hidle
          exact ⟨hconnected, htear.session session⟩
        | nil =>
          simp only [Delivery.read, hcurrent, houtput] at hread
          obtain ⟨hleft, hread⟩ := Option.ite_none_left_eq_some.1 hread
          cases hread
          refine h.receive_none hidle (by rintro frame ⟨⟩) fun _ q hq => ?_
          obtain rfl : p = q := Option.some.inj (hcurrent.symm.trans hq)
          have hempty := h.connected.closed p hq (Bool.eq_false_of_not_eq_true hleft)
          rw [hempty, houtput]
          exact ⟨by simp, by simp⟩
  · rw [if_neg halive] at hstep
    cases hstep
    refine h.receive_none hidle (by rintro frame ⟨⟩) ?_
    rintro (hdead | ⟨hup, -⟩)
    · exact hquiet hdead
    · exact (halive hup).elim

theorem Sound.acknowledge (hok : LosesNothing parse d (.acknowledge fault))
    (hstep : d.step parse (.acknowledge fault) = some t) : t.Sound parse := by
  obtain ⟨line, hline, rfl⟩ := Option.map_eq_some_iff.1 hstep
  obtain ⟨hconnected, hreturned⟩ := h.connected.acknowledge hline fault
  have hrest : ∀ t, d.acknowledge line fault = t → t.spool = d.spool ∧ t.placed = d.placed ∧
      t.current = d.current ∧ t.orphans = d.orphans := by
    rintro t rfl
    unfold Delivery.acknowledge
    split <;> exact ⟨rfl, rfl, rfl, rfl⟩
  obtain ⟨hspool, hplaced, hcurrent, horphans⟩ := hrest _ rfl
  refine ⟨hconnected, h.accounted.same hspool hplaced (fun name helse => ?_) ?_⟩
  · obtain ⟨p, hp, hsent⟩ | ⟨other, hother, horigin⟩ | hmem := helse
    · exact Or.inl ⟨p, hcurrent ▸ hp, hsent⟩
    · -- the line that was handled is returned
      obtain rfl : line = other := Option.some.inj (hline.symm.trans hother)
      have hfault : fault = none := by
        cases fault with
        | none => rfl
        | some error => cases horigin.symm.trans (hok rfl line hline)
      have hevent := (h.connected.handled line hline).1 (by rw [horigin]; rfl)
      right; right
      rw [hreturned, if_pos ⟨hfault, hevent⟩, horigin]
      exact List.mem_append_right _ (List.mem_singleton.2 rfl)
    · right; right
      rw [hreturned]
      split_ifs
      · exact List.mem_append_left _ hmem
      · exact hmem
  · intro p hp name rest hremoving
    rw [processes, hcurrent, horphans] at hp
    exact ⟨p, hp, hremoving⟩

section

variable (hidle : d.handling = none)

include hidle

theorem Sound.connect {session : RelaySession}
    (hok : d.session.connection = none ∧ session.state = .streaming ∧
      ∃ c ∈ session.connection, c.cursor = d.session.resume) : (d.connected session).Sound parse :=
  ⟨.connected hidle hok.2.1 hok.2.2, h.accounted.connected (h.connected.quiet hok.1) session⟩

/-- A connect that fails was made without a connection in use. -/
theorem Sound.refused {session : RelaySession} (hdrops : d.session.Drops session)
    (hquiet : session.connection = none → d.session.connection = none) (spawned : Bool) :
    (d.refused session spawned).Sound parse :=
  ⟨h.connected.refused hidle hdrops spawned,
    h.accounted.refused (fun hnone => h.connected.quiet (hquiet hnone)) spawned⟩

theorem Sound.start (outcome : Except TransportError RelayHello) (spawned : Bool) :
    (d.start outcome spawned).Sound parse := by
  unfold Delivery.start
  split
  · next session hstart =>
    exact h.connect hidle (RelaySession.start_ok h.connected.held hstart)
  · next error session hstart =>
    refine h.refused hidle (RelaySession.start_error hstart) (fun hnone => ?_) _
    exact RelaySession.start_error_none h.connected.held hstart hnone

theorem Sound.tickReconnect (jitter : ℤ) (outcome : Except TransportError RelayHello)
    (spawned : Bool) : (d.tickReconnect jitter outcome spawned).Sound parse := by
  unfold Delivery.tickReconnect
  split
  · next session called htick =>
    exact h.connect hidle (RelaySession.tickReconnect_ok h.connected.held htick)
  · next result session called hresult htick =>
    have hother : result ≠ .ok true := by
      rintro rfl
      exact hresult rfl
    refine h.refused hidle (RelaySession.tickReconnect_other hother htick) (fun hnone => ?_) _
    exact RelaySession.tickReconnect_none h.connected.held htick hnone

end

theorem Sound.step {act : DeliveryAct} (hok : LosesNothing parse d act)
    (hstep : d.step parse act = some t) : t.Sound parse := by
  have hidle : ∀ {next : Delivery}, (if d.handling.isSome then none else some next) = some t →
      d.handling = none ∧ next = t := by
    intro next hnext
    obtain ⟨hnone, hnext⟩ := Option.ite_none_left_eq_some.1 hnext
    exact ⟨Option.not_isSome_iff_eq_none.1 hnone, Option.some.inj hnext⟩
  cases act with
  | place name bytes =>
    obtain ⟨hnew, hstep⟩ := Option.ite_none_left_eq_some.1 hstep
    cases hstep
    refine ⟨?_, h.accounted.place bytes hnew⟩
    exact ⟨h.connected.held, h.connected.sound, h.connected.closed, h.connected.wire,
      h.connected.handled⟩
  | relay act => exact h.relay hok hstep
  | orphan index act => exact h.orphan hok hstep
  | kill => exact h.kill hok hstep
  | disconnect =>
    cases hstep
    exact ⟨h.connected.unlink, h.accounted.unlink hok⟩
  | snapshot alive =>
    obtain ⟨hnone, rfl⟩ := hidle hstep
    refine h.withSession hnone (RelaySession.snapshot_drops d.session alive) fun hconnection => ?_
    by_cases halive : alive = .ok true
    · subst halive
      refine h.connected.quiet ?_
      unfold RelaySession.snapshot at hconnection
      split at hconnection
      · exact hconnection
      · next hother => exact (hother rfl).elim
      · exact hconnection
    · exact hok halive
  | receive alive fault torn => exact h.receive hok hstep
  | acknowledge fault => exact h.acknowledge hok hstep
  | start outcome spawned =>
    obtain ⟨hnone, rfl⟩ := hidle hstep
    exact h.start hnone outcome spawned
  | tickReconnect jitter outcome spawned =>
    obtain ⟨hnone, rfl⟩ := hidle hstep
    exact h.tickReconnect hnone jitter outcome spawned
  | stop =>
    obtain ⟨hnone, rfl⟩ := hidle hstep
    exact h.withSession hnone (Or.inl rfl) fun _ => hok

end

theorem sound_initial (parse : String → Option WireIngestFrame) (host : RemoteHostConfig) :
    (initial host).Sound parse := by
  refine ⟨⟨?_, ?_, ?_, ?_, ?_⟩, ⟨List.nodup_nil, List.Sublist.refl [], ?_, ?_⟩⟩
  · intro hsome
    cases hsome
  all_goals
    intro x hx
    cases hx

/-- In every run of steps that lose nothing, every event that was ever placed in the spool is at
all times in the spool, on its way over a live connection, or returned by a poll. -/
theorem events_kept (parse : String → Option WireIngestFrame) (host : RemoteHostConfig)
    (acts : List DeliveryAct)
    (hguard : Guarded (step parse) (LosesNothing parse) (initial host) acts) :
    ∀ d ∈ visited (step parse) (initial host) acts, ∀ file ∈ d.placed,
      hasFrameExtension file.name = true → Forwardable parse file.bytes →
        d.Kept parse file.name := by
  intro d hd file hfile hext hforward
  have hsound := Guarded.forall_visited (fun _ _ _ hok hs hstep => hs.step hok hstep)
    (sound_initial parse host) hguard d hd
  exact hsound.accounted.kept file hfile hext hforward

/-! ## Runs with and without a loss -/

open SessionRun (sampleHost sampleHello)
open Relay.World (parseTool toolFrame toolPayload)

/-- Evaluate `LosesNothing`, for some of the steps. -/
def losesNothingCheck (d : Delivery) : DeliveryAct → Bool
  | .place .. | .start .. | .tickReconnect .. => true
  | .relay (.list _) | .relay (.visit _) | .relay (.remove _) =>
    d.current.all fun p => p.main.running
  | .relay (.drain now fault) => d.current.all fun p => p.hooks.head?.all fun hook =>
      match hook.result with
      | .error _ => false
      | .ok payload => match normalizeHookPayload payload now with
        | .ok (some event) => fault.isNone && p.sequence + 1 < 2 ^ 64 &&
          ((RelayFrame.mk (p.sequence + 1) event).validateAfter p.sequence).isOk
        | _ => false
  | .disconnect | .snapshot _ => d.current.all fun p =>
      p.hooks.all (fun hook => hook.origin.isNone) && p.output.all fun line => line.origin.isNone
  | .receive (.ok true) none _ => true
  | .acknowledge fault => fault.isNone
  | _ => false

theorem losesNothing_of_check {act : DeliveryAct} (h : losesNothingCheck d act = true) :
    LosesNothing parse d act := by
  have hquiet : (d.current.all fun p => p.hooks.all (fun hook => hook.origin.isNone) &&
      p.output.all fun line => line.origin.isNone) = true → d.Quiet := by
    intro hall p hp
    rw [Option.mem_def.1 hp] at hall
    simpa using hall
  cases act with
  | place | start | tickReconnect => trivial
  | kill | stop | orphan => cases h
  | relay act =>
    intro p hp
    cases act with
    | list fault | visit fault | remove fault =>
      simp only [losesNothingCheck, Option.mem_def.1 hp, Option.all_some] at h
      exact ⟨fun hends => hends.elim, fun _ => h⟩
    | control | check | beat => cases h
    | drain now fault =>
      simp only [losesNothingCheck, Option.mem_def.1 hp, Option.all_some] at h
      refine ⟨?_, ?_⟩
      · rintro ⟨hook, hhook, hfails⟩
        rw [Option.mem_def.1 hhook, Option.all_some] at h
        refine (hfails ?_).elim
        split at h
        · cases h
        · next payload hresult =>
          split at h
          · next event hnormal =>
            simp only [Bool.and_eq_true, Option.isNone_iff_eq_none, decide_eq_true_eq] at h
            refine ⟨payload, hresult, Or.inr ⟨event, hnormal, h.1.1, h.1.2, ?_⟩⟩
            cases hvalid : (RelayFrame.mk (p.sequence + 1) event).validateAfter p.sequence with
            | ok _ => rfl
            | error error =>
              rw [hvalid] at h
              cases h.2
          · cases h
      · rintro ⟨hact, -⟩
        cases hact
  | disconnect => exact hquiet h
  | snapshot alive => exact fun _ => hquiet h
  | receive alive fault torn =>
    have hfine : alive = .ok true ∧ fault = none := by
      unfold losesNothingCheck at h
      split at h <;> simp_all
    obtain ⟨rfl, rfl⟩ := hfine
    exact ⟨by rintro ⟨⟩, by rintro ⟨⟩⟩
  | acknowledge fault =>
    intro hsome
    rw [Option.isNone_iff_eq_none.1 h] at hsome
    cases hsome

/-- An event is placed and delivered, and then the connection is lost and made again. -/
def deliveredRun : List DeliveryAct :=
  [.place "a.frame" toolFrame, .start (.ok (sampleHello 0)) true, .relay (.list none),
    .relay (.visit none), .relay (.remove none), .relay (.drain 0 none),
    .receive (.ok true) none false, .acknowledge none, .disconnect, .snapshot (.ok false),
    .tickReconnect 0 (.ok (sampleHello 1)) true]

theorem events_kept_deliveredRun :
    ∃ d, run (step parseTool) (initial sampleHost) deliveredRun = some d ∧
      d.spool = [] ∧ d.returned = [some "a.frame"] ∧ d.session.state = .streaming ∧
      d.Kept parseTool "a.frame" := by
  have hrun : ((run (step parseTool) (initial sampleHost) deliveredRun).map fun d =>
      (d.spool, d.returned, d.session.state, d.placed)) =
        some ([], [some "a.frame"], .streaming, [⟨"a.frame", toolFrame⟩]) := by
    decide +kernel
  obtain ⟨d, hd, hparts⟩ := Option.map_eq_some_iff.1 hrun
  obtain ⟨hspool, hreturned, hstate, hplaced⟩ : _ ∧ _ ∧ _ ∧ _ := by
    simpa only [Prod.mk.injEq] using hparts
  have hguard : Guarded (step parseTool) (LosesNothing parseTool) (initial sampleHost)
      deliveredRun := by
    refine Guarded.of_sound losesNothingCheck (fun _ _ h => losesNothing_of_check h) ?_
    decide +kernel
  refine ⟨d, hd, hspool, hreturned, hstate, ?_⟩
  refine events_kept parseTool sampleHost deliveredRun hguard d (mem_visited hd)
    ⟨"a.frame", toolFrame⟩ ?_ (by decide) ⟨toolPayload, by decide⟩
  rw [hplaced]
  exact List.mem_singleton.2 rfl

/-- The connection is lost after the watcher has removed the frame. -/
def droppedRun : List DeliveryAct :=
  [.place "a.frame" toolFrame, .start (.ok (sampleHello 0)) true, .relay (.list none),
    .relay (.visit none), .relay (.remove none), .disconnect]

/-- The frame is delivered up to its acknowledgement, whose write fails. -/
def unacknowledgedRun : List DeliveryAct :=
  [.place "a.frame" toolFrame, .start (.ok (sampleHello 0)) true, .relay (.list none),
    .relay (.visit none), .relay (.remove none), .relay (.drain 0 none),
    .receive (.ok true) none false, .acknowledge (some .disconnected)]

theorem lost_in {acts : List DeliveryAct} (hacts : acts ∈ [droppedRun, unacknowledgedRun]) :
    ∃ d, run (step parseTool) (initial sampleHost) acts = some d ∧
      ⟨"a.frame", toolFrame⟩ ∈ d.placed ∧ hasFrameExtension "a.frame" = true ∧
      Forwardable parseTool toolFrame ∧ ¬ d.Kept parseTool "a.frame" := by
  have hrun : ((run (step parseTool) (initial sampleHost) acts).map fun d =>
      (d.spool, d.returned, d.handling, d.current.all fun p => p.hooks.isEmpty && p.output.isEmpty,
        d.placed)) = some ([], [], none, true, [⟨"a.frame", toolFrame⟩]) := by
    obtain rfl | rfl : acts = droppedRun ∨ acts = unacknowledgedRun := by simpa using hacts
    · decide
    · decide +kernel
  obtain ⟨d, hd, hparts⟩ := Option.map_eq_some_iff.1 hrun
  obtain ⟨hspool, hreturned, hhandling, hempty, hplaced⟩ : _ ∧ _ ∧ _ ∧ _ ∧ _ := by
    simpa only [Prod.mk.injEq] using hparts
  refine ⟨d, hd, ?_, by decide, ⟨toolPayload, by decide⟩, ?_⟩
  · rw [hplaced]
    exact List.mem_singleton.2 rfl
  rintro (⟨-, file, hfile, -⟩ | ⟨p, hp, hsent⟩ | ⟨line, hline, -⟩ | hmem)
  · rw [hspool] at hfile
    cases hfile
  · rw [Option.mem_def.1 hp, Option.all_some, Bool.and_eq_true, List.isEmpty_iff,
      List.isEmpty_iff] at hempty
    rw [Process.Sent, hempty.1, hempty.2] at hsent
    simp at hsent
  · rw [hhandling] at hline
    cases hline
  · rw [hreturned] at hmem
    cases hmem

/-- In both runs the event is nowhere. -/
theorem event_lost :
    (∃ d, run (step parseTool) (initial sampleHost) droppedRun = some d ∧
      ⟨"a.frame", toolFrame⟩ ∈ d.placed ∧ hasFrameExtension "a.frame" = true ∧
      Forwardable parseTool toolFrame ∧ ¬ d.Kept parseTool "a.frame") ∧
    ∃ d, run (step parseTool) (initial sampleHost) unacknowledgedRun = some d ∧
      ⟨"a.frame", toolFrame⟩ ∈ d.placed ∧ hasFrameExtension "a.frame" = true ∧
      Forwardable parseTool toolFrame ∧ ¬ d.Kept parseTool "a.frame" :=
  ⟨lost_in (by simp), lost_in (by simp)⟩

end Delivery

end Relay

end LlmNotch
