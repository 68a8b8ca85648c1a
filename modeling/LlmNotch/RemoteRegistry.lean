import Mathlib.Logic.Function.Basic
import LlmNotch.RelaySession

/-!
# The remote hosts of the desktop

`Registry` is the desktop's list of remote hosts : the saved configurations, and a relay session
for every host whose relay was started. A session copies the configuration of its host when it is
made, and connects with that copy from then on : when it is started again, and when the
background poll reconnects it.

`connects` notes every connect of the transport with the configuration it used and the one that
was saved at the time. `connects_with_saved` : they are the same if no configuration is changed
while there is a session for its host.
-/

namespace LlmNotch

namespace Relay

/-! ## Host configurations -/

inductive ConfigError where
  | invalidId | invalidDestination | invalidPort | invalidTimeout | pathNotAbsolute
  deriving DecidableEq

def ConfigError.message : ConfigError → String
  | invalidId => "remote host id is invalid"
  | invalidDestination => "SSH destination is invalid"
  | invalidPort => "SSH port must not be zero"
  | invalidTimeout => "connect timeout must be between 1 and 120 seconds"
  | pathNotAbsolute => "path must be absolute"

def isAsciiAlphanumeric (c : Char) : Bool :=
  c.isDigit || ('a' ≤ c && c ≤ 'z') || ('A' ≤ c && c ≤ 'Z')

def validDestination (value : String) : Bool :=
  !outOfBounds 255 value && value.toList.head? != some '-' &&
    value.toList.all fun c => isAsciiAlphanumeric c || c ∈ ['.', '-', '_', '@', '[', ']', ':', '%']

/-- `isAbsolute` is `Path::is_absolute` of the platform. -/
def RemoteHostConfig.validate (isAbsolute : String → Bool) (config : RemoteHostConfig) :
    Except ConfigError Unit :=
  if outOfBounds 64 config.id ||
      !config.id.toList.all fun c => isAsciiAlphanumeric c || c ∈ ['-', '_'] then
    .error .invalidId
  else if !validDestination config.destination then .error .invalidDestination
  else if config.port = some 0 then .error .invalidPort
  else if config.connectTimeoutSeconds < 1 ∨ 120 < config.connectTimeoutSeconds then
    .error .invalidTimeout
  else if !(config.identityFile.toList ++ config.knownHostsFile.toList).all isAbsolute then
    .error .pathNotAbsolute
  else .ok ()

/-! ## The registry -/

structure SessionWatch where
  lastConnectionState : ConnectionState
  reconnectAttempt : ℕ
  nextReconnectAtMs : ℤ

def SessionWatch.default : SessionWatch :=
  ⟨.disconnected, 0, 0⟩

def SessionWatch.scheduleReconnect (w : SessionWatch) (now : ℤ) : SessionWatch :=
  { w with
    reconnectAttempt := min (w.reconnectAttempt + 1) (2 ^ 16 - 1)
    nextReconnectAtMs := now +
      ((ReconnectPolicy.default.delayMs w.reconnectAttempt 0).getD
        ReconnectPolicy.default.maxDelayMs : ℕ) }

/-- A call of the transport's `connect`, and what was saved for the host then. -/
structure ConnectMade where
  config : RemoteHostConfig
  saved : Option RemoteHostConfig
  deriving DecidableEq

/-- `saved` holds what the last successful `upsertHost` has stored for each id. -/
structure Registry where
  hosts : String → Option RemoteHostConfig
  sessions : List RelaySession
  watch : String → Option SessionWatch
  saved : String → Option RemoteHostConfig
  connects : List ConnectMade

/-- What the processes of a host do during a poll. -/
structure HostPoll where
  aliveFirst : Except TransportError Bool
  aliveBefore : Except TransportError Bool
  aliveReceive : Except TransportError Bool
  read : Except TransportError (Option RelayFrame)
  ackFault : Option TransportError
  outcome : Except TransportError RelayHello
  aliveAfter : Except TransportError Bool

/-- `available` : the SSH executable and the relay binary are there. -/
inductive RegistryCall where
  | upsertHost (config : RemoteHostConfig) (persistFault : Option String)
  | removeHost (hostId : String) (closeFault : Option TransportError)
    (deleteFault : Option String)
  | startRelay (hostId : String) (available : Bool) (outcome : Except TransportError RelayHello)
    (alive : Except TransportError Bool)
  | stopRelay (hostId : String) (available : Bool) (closeFault : Option TransportError)
  | pollActiveSessions (now : ℤ) (available : Bool) (hosts : String → HostPoll)

def ConnectionState.ended : ConnectionState → Bool
  | disconnected | failed => true
  | _ => false

/-- The wrapping sum of the bytes in 16 bits, whose remainder has the sign of the sum. -/
def reconnectJitterBasisPoints (hostId : String) : ℤ :=
  let sum : ℕ := (hostId.toUTF8.data.toList.map UInt8.toNat).sum % 2 ^ 16
  Int.tmod (if sum < 2 ^ 15 then sum else sum - 2 ^ 16) 2501

namespace SessionWatch

/-- The end of a poll for one host. -/
def observe (w : SessionWatch) (state : ConnectionState) (now : ℤ) : SessionWatch :=
  if state = w.lastConnectionState then w
  else if state = .streaming then
    { w with lastConnectionState := state, reconnectAttempt := 0, nextReconnectAtMs := 0 }
  else if w.lastConnectionState = .streaming && state.ended then
    { w.scheduleReconnect now with lastConnectionState := state }
  else { w with lastConnectionState := state }

end SessionWatch

/-- What a poll does in the state it finds, and whether it called `connect`. -/
def pollState (now : ℤ) (poll : HostPoll) (s : RelaySession) (w : SessionWatch) :
    RelaySession × SessionWatch × Bool :=
  match s.state with
  | .streaming => match s.receive poll.aliveReceive poll.read with
    | (.ok (some frame), s) => ((s.acknowledge frame.sequence poll.ackFault).2, w, false)
    | (.ok none, s) => (s, w.scheduleReconnect now, false)
    | (.error _, s) => (s, w, false)
  | .disconnected =>
    if w.nextReconnectAtMs ≤ now then
      match s.tickReconnect (reconnectJitterBasisPoints s.host.id) poll.outcome with
      | (.ok true, s, called) =>
        (s, { w with reconnectAttempt := 0, nextReconnectAtMs := 0 }, called)
      | (.error (.transport _), s, called) | (.error (.alreadyActive _), s, called) =>
        (s, w.scheduleReconnect now, called)
      | (_, s, called) => (s, w, called)
    else (s, w, false)
  | _ => (s, w, false)

/-- A poll of one session. -/
def pollSession (now : ℤ) (poll : HostPoll) (s : RelaySession) (w : SessionWatch) :
    RelaySession × SessionWatch × Bool :=
  let polled := pollState now poll (s.snapshot poll.aliveBefore) w
  let s := polled.1.snapshot poll.aliveAfter
  (s, polled.2.1.observe s.state now, polled.2.2)

namespace Registry

/-- The registry after the saved hosts were loaded. -/
def initial (loaded : List RemoteHostConfig) : Registry :=
  let hosts := fun hostId => loaded.find? fun config => config.id = hostId
  ⟨hosts, [], fun _ => none, hosts, []⟩

def session (r : Registry) (hostId : String) : Option RelaySession :=
  r.sessions.find? fun s => s.host.id = hostId

def setSession (r : Registry) (s : RelaySession) : Registry :=
  { r with sessions := r.sessions.map fun other => if other.host.id = s.host.id then s else other }

/-- `RemoteRelayManager::remove`, which takes the session out before it is stopped. -/
def dropSession (r : Registry) (hostId : String) (closeFault : Option TransportError) :
    Except RelaySessionError Unit × Registry :=
  match r.session hostId with
  | none => (.ok (), r)
  | some s =>
    ((s.stop closeFault).1,
      { r with sessions := r.sessions.eraseP fun other => other.host.id = hostId })

def noteConnect (r : Registry) (config : RemoteHostConfig) (called : Bool) : Registry :=
  if called then { r with connects := r.connects ++ [⟨config, r.saved config.id⟩] } else r

def upsertHost (isAbsolute : String → Bool) (r : Registry) (config : RemoteHostConfig)
    (persistFault : Option String) : Except String Unit × Registry :=
  match config.validate isAbsolute, persistFault with
  | .error error, _ => (.error error.message, r)
  | .ok _, some error => (.error error, r)
  | .ok _, none =>
    (.ok (), { r with
      hosts := Function.update r.hosts config.id (some config)
      saved := Function.update r.saved config.id (some config) })

def removeHost (r : Registry) (hostId : String) (closeFault : Option TransportError)
    (deleteFault : Option String) : Registry :=
  if (r.hosts hostId).isNone then r
  else match r.dropSession hostId closeFault with
    | (.error _, r) => r
    | (.ok _, r) =>
      let r := { r with watch := Function.update r.watch hostId none }
      match deleteFault with
      | some _ => r
      | none => { r with hosts := Function.update r.hosts hostId none }

/-- `connection_status` looks at the session once more. -/
def connectionStatus (r : Registry) (hostId : String) (alive : Except TransportError Bool) :
    Registry :=
  match r.session hostId with
  | none => r
  | some s => r.setSession (s.snapshot alive)

/-- A session for the host, made from its configuration if there is none. -/
def register (spoolDirValid : Bool) (r : Registry) (hostId : String) (host : RemoteHostConfig) :
    Registry :=
  if (r.session hostId).isNone && spoolDirValid then
    { r with sessions := r.sessions ++ [.withResume host .default 0] }
  else r

def startRelay (spoolDirValid : Bool) (r : Registry) (hostId : String) (available : Bool)
    (outcome : Except TransportError RelayHello) (alive : Except TransportError Bool) :
    Registry :=
  match available, r.hosts hostId with
  | true, some host =>
    let r := r.register spoolDirValid hostId host
    match r.session hostId with
    | none => r
    | some s =>
      let r := (r.noteConnect s.host s.startConnects).setSession (s.start outcome).2
      match (s.start outcome).1 with
      | .error _ => r
      | .ok _ =>
        { r with
          watch := Function.update r.watch hostId
            (some { (r.watch hostId).getD .default with
              reconnectAttempt := 0
              nextReconnectAtMs := 0 }) }.connectionStatus hostId alive
  | _, _ => r

def stopRelay (r : Registry) (hostId : String) (available : Bool)
    (closeFault : Option TransportError) : Registry :=
  if available && (r.hosts hostId).isSome then
    match r.dropSession hostId closeFault with
    | (.error _, r) => r
    | (.ok _, r) => { r with watch := Function.update r.watch hostId none }
  else r

/-- One host of a poll. -/
def pollHost (now : ℤ) (poll : HostPoll) (r : Registry) (hostId : String) : Registry :=
  match r.session hostId with
  | none => r
  | some s =>
    let polled := pollSession now poll s ((r.watch hostId).getD .default)
    let r := (r.noteConnect s.host polled.2.2).setSession polled.1
    { r with watch := Function.update r.watch hostId (some polled.2.1) }

/-- One pass over all hosts, if the service is available. -/
def pollActiveSessions (r : Registry) (now : ℤ) (available : Bool) (hosts : String → HostPoll) :
    Registry :=
  if available then
    let r := { r with
      sessions := r.sessions.map fun s : RelaySession => s.snapshot (hosts s.host.id).aliveFirst }
    (r.sessions.map fun s : RelaySession => s.host.id).foldl
      (fun r hostId => r.pollHost now (hosts hostId) hostId) r
  else r

/-- What the calls depend on besides the registry : the platform's paths, and whether the
configured spool directory is allowed. -/
structure Env where
  isAbsolute : String → Bool
  spoolDirValid : Bool

def exec (env : Env) (r : Registry) : RegistryCall → Registry
  | .upsertHost config persistFault => (r.upsertHost env.isAbsolute config persistFault).2
  | .removeHost hostId closeFault deleteFault => r.removeHost hostId closeFault deleteFault
  | .startRelay hostId available outcome alive =>
    r.startRelay env.spoolDirValid hostId available outcome alive
  | .stopRelay hostId available closeFault => r.stopRelay hostId available closeFault
  | .pollActiveSessions now available hosts => r.pollActiveSessions now available hosts

def step (env : Env) (r : Registry) (call : RegistryCall) : Option Registry :=
  some (r.exec env call)

/-! ## The configuration of a session -/

end Registry

namespace RelaySession

@[simp] theorem snapshot_host (s : RelaySession) (alive : Except TransportError Bool) :
    (s.snapshot alive).host = s.host := by
  unfold snapshot
  split <;> rfl

@[simp] theorem start_host (s : RelaySession) (outcome : Except TransportError RelayHello) :
    (s.start outcome).2.host = s.host := by
  unfold start
  split_ifs
  · rfl
  · rfl
  · split <;> rfl

@[simp] theorem receive_host (s : RelaySession) (alive : Except TransportError Bool)
    (read : Except TransportError (Option RelayFrame)) :
    (s.receive alive read).2.host = s.host := by
  unfold receive
  split
  · rfl
  · split
    · rfl
    · rfl
    · split <;> rfl

@[simp] theorem acknowledge_host (s : RelaySession) (last : ℕ) (fault : Option TransportError) :
    (s.acknowledge last fault).2.host = s.host := by
  unfold acknowledge
  split
  · rfl
  · split
    · rfl
    · dsimp only
      split_ifs <;> rfl

@[simp] theorem tickReconnect_host (s : RelaySession) (jitter : ℤ)
    (outcome : Except TransportError RelayHello) :
    (s.tickReconnect jitter outcome).2.1.host = s.host := by
  unfold tickReconnect
  split_ifs
  · rfl
  · rfl
  · split
    · rfl
    · dsimp only
      split <;> rfl

end RelaySession

theorem pollState_host (now : ℤ) (poll : HostPoll) (s : RelaySession) (w : SessionWatch) :
    (pollState now poll s w).1.host = s.host := by
  unfold pollState
  split
  · have hreceive := s.receive_host poll.aliveReceive poll.read
    split
    · next frame s' heq =>
      rw [heq] at hreceive
      exact (s'.acknowledge_host _ _).trans hreceive
    · next s' heq =>
      rw [heq] at hreceive
      exact hreceive
    · next s' heq =>
      rw [heq] at hreceive
      exact hreceive
  · have htick := s.tickReconnect_host (reconnectJitterBasisPoints s.host.id) poll.outcome
    split_ifs
    · split
      all_goals
        next heq =>
          rw [heq] at htick
          exact htick
    · rfl
  · rfl

/-- A poll keeps the session's configuration. -/
theorem pollSession_host (now : ℤ) (poll : HostPoll) (s : RelaySession) (w : SessionWatch) :
    (pollSession now poll s w).1.host = s.host := by
  unfold pollSession
  rw [RelaySession.snapshot_host, pollState_host, RelaySession.snapshot_host]

namespace Registry

variable {env : Env} {r : Registry}

/-- Sessions have the configurations that are saved, and so had all connects. -/
structure UpToDate (r : Registry) : Prop where
  hosts : ∀ hostId config, r.hosts hostId = some config →
    config.id = hostId ∧ r.saved hostId = some config
  sessions : ∀ s ∈ r.sessions, r.saved s.host.id = some s.host
  connects : ∀ made ∈ r.connects, made.saved = some made.config

/-- If a configuration is saved, no session for its host has another one. -/
def SparesSessions (env : Env) (r : Registry) : RegistryCall → Prop
  | .upsertHost config persistFault =>
    config.validate env.isAbsolute = .ok () → persistFault = none →
      ∀ s ∈ r.sessions, s.host.id = config.id → s.host = config
  | _ => True

variable {s : RelaySession}

theorem mem_of_session {hostId : String} (h : r.session hostId = some s) :
    s ∈ r.sessions ∧ s.host.id = hostId := by
  refine ⟨List.mem_of_find?_eq_some h, ?_⟩
  simpa using List.find?_some h

theorem UpToDate.noteConnect (h : r.UpToDate) (hs : s ∈ r.sessions) (called : Bool) :
    (r.noteConnect s.host called).UpToDate := by
  unfold Registry.noteConnect
  split_ifs
  · refine ⟨h.hosts, h.sessions, fun made hmade => ?_⟩
    rcases List.mem_append.1 hmade with hmade | hmade
    · exact h.connects made hmade
    · rw [List.mem_singleton.1 hmade]
      exact h.sessions s hs
  · exact h

theorem UpToDate.setSession (h : r.UpToDate) (hs : r.saved s.host.id = some s.host) :
    (r.setSession s).UpToDate := by
  refine ⟨h.hosts, fun t ht => ?_, h.connects⟩
  obtain ⟨other, hother, rfl⟩ := List.mem_map.1 ht
  split_ifs
  · exact hs
  · exact h.sessions other hother

theorem noteConnect_saved (r : Registry) (config : RemoteHostConfig) (called : Bool) :
    (r.noteConnect config called).saved = r.saved := by
  unfold noteConnect
  split_ifs <;> rfl

/-- A session that connects is put back with the configuration it had. -/
theorem UpToDate.connect (h : r.UpToDate) {s' : RelaySession} (hs : s ∈ r.sessions)
    (hhost : s'.host = s.host) (called : Bool) :
    ((r.noteConnect s.host called).setSession s').UpToDate := by
  refine (h.noteConnect hs called).setSession ?_
  rw [noteConnect_saved, hhost]
  exact h.sessions s hs

theorem UpToDate.watch (h : r.UpToDate) (watch : String → Option SessionWatch) :
    { r with watch := watch }.UpToDate :=
  ⟨h.hosts, h.sessions, h.connects⟩

theorem UpToDate.connectionStatus (h : r.UpToDate) (hostId : String)
    (alive : Except TransportError Bool) : (r.connectionStatus hostId alive).UpToDate := by
  unfold Registry.connectionStatus
  split
  · exact h
  · next s hs =>
    refine h.setSession ?_
    rw [RelaySession.snapshot_host]
    exact h.sessions s (mem_of_session hs).1

theorem UpToDate.upsertHost (h : r.UpToDate) (config : RemoteHostConfig)
    (persistFault : Option String) (hspares : SparesSessions env r (.upsertHost config persistFault)) :
    (r.upsertHost env.isAbsolute config persistFault).2.UpToDate := by
  unfold Registry.upsertHost
  split
  · exact h
  · exact h
  · next hvalid =>
    refine ⟨fun hostId found hfound => ?_, fun s hs => ?_, h.connects⟩
    · dsimp only at hfound ⊢
      by_cases hid : hostId = config.id
      · subst hid
        rw [Function.update_self] at hfound ⊢
        cases hfound
        exact ⟨rfl, rfl⟩
      · rw [Function.update_of_ne hid] at hfound ⊢
        exact h.hosts hostId found hfound
    · dsimp only
      by_cases hid : s.host.id = config.id
      · rw [hid, Function.update_self, hspares hvalid rfl s hs hid]
      · rw [Function.update_of_ne hid]
        exact h.sessions s hs

theorem dropSession_snd (r : Registry) (hostId : String) (closeFault : Option TransportError) :
    ∃ sessions, sessions.Sublist r.sessions ∧
      (r.dropSession hostId closeFault).2 = { r with sessions := sessions } := by
  unfold dropSession
  split
  · exact ⟨r.sessions, List.Sublist.refl _, rfl⟩
  · exact ⟨_, List.eraseP_sublist, rfl⟩

section

variable (h : r.UpToDate)

include h

theorem UpToDate.dropSession (hostId : String) (closeFault : Option TransportError) :
    (r.dropSession hostId closeFault).2.UpToDate := by
  obtain ⟨sessions, hsub, hr⟩ := dropSession_snd r hostId closeFault
  rw [hr]
  exact ⟨h.hosts, fun s hs => h.sessions s (hsub.subset hs), h.connects⟩

theorem UpToDate.removeHost (hostId : String) (closeFault : Option TransportError)
    (deleteFault : Option String) : (r.removeHost hostId closeFault deleteFault).UpToDate := by
  have hdrop := h.dropSession hostId closeFault
  unfold Registry.removeHost
  split_ifs
  · exact h
  · split
    · next heq =>
      rw [heq] at hdrop
      exact hdrop
    · next heq =>
      rw [heq] at hdrop
      cases deleteFault with
      | some _ => exact hdrop.watch _
      | none =>
        refine ⟨fun other found hfound => ?_, hdrop.sessions, hdrop.connects⟩
        dsimp only at hfound ⊢
        by_cases hid : other = hostId
        · subst hid
          rw [Function.update_self] at hfound
          cases hfound
        · rw [Function.update_of_ne hid] at hfound
          exact hdrop.hosts other found hfound

theorem UpToDate.register (spoolDirValid : Bool) {hostId : String} {host : RemoteHostConfig}
    (hhost : r.hosts hostId = some host) : (r.register spoolDirValid hostId host).UpToDate := by
  unfold Registry.register
  split_ifs
  · refine ⟨h.hosts, fun s hs => ?_, h.connects⟩
    rcases List.mem_append.1 hs with hs | hs
    · exact h.sessions s hs
    · rw [List.mem_singleton.1 hs]
      obtain ⟨hid, hsaved⟩ := h.hosts hostId host hhost
      exact hid ▸ hsaved
  · exact h

theorem UpToDate.startRelay (spoolDirValid : Bool) (hostId : String) (available : Bool)
    (outcome : Except TransportError RelayHello) (alive : Except TransportError Bool) :
    (r.startRelay spoolDirValid hostId available outcome alive).UpToDate := by
  unfold Registry.startRelay
  split
  · next host hhost =>
    have hregister := h.register spoolDirValid hhost
    dsimp only
    split
    · exact hregister
    · next s hs =>
      have hset := hregister.connect (mem_of_session hs).1 (s.start_host outcome) s.startConnects
      split
      · exact hset
      · exact (hset.watch _).connectionStatus hostId alive
  · exact h

theorem UpToDate.stopRelay (hostId : String) (available : Bool)
    (closeFault : Option TransportError) : (r.stopRelay hostId available closeFault).UpToDate := by
  have hdrop := h.dropSession hostId closeFault
  unfold Registry.stopRelay
  split_ifs
  · split
    · next heq =>
      rw [heq] at hdrop
      exact hdrop
    · next heq =>
      rw [heq] at hdrop
      exact hdrop.watch _
  · exact h

theorem UpToDate.pollHost (now : ℤ) (poll : HostPoll) (hostId : String) :
    (r.pollHost now poll hostId).UpToDate := by
  unfold Registry.pollHost
  split
  · exact h
  · next s hs =>
    exact (h.connect (mem_of_session hs).1 (pollSession_host now poll s _) _).watch _

theorem UpToDate.pollActiveSessions (now : ℤ) (available : Bool) (hosts : String → HostPoll) :
    (r.pollActiveSessions now available hosts).UpToDate := by
  have hfold : ∀ (ids : List String) (r : Registry), r.UpToDate →
      (ids.foldl (fun r hostId => r.pollHost now (hosts hostId) hostId) r).UpToDate := by
    intro ids
    induction ids with
    | nil => exact fun _ hr => hr
    | cons hostId ids ih => exact fun r hr => ih _ (hr.pollHost now (hosts hostId) hostId)
  unfold Registry.pollActiveSessions
  split_ifs
  · refine hfold _ _ ⟨h.hosts, fun s hs => ?_, h.connects⟩
    obtain ⟨other, hother, rfl⟩ := List.mem_map.1 hs
    rw [RelaySession.snapshot_host]
    exact h.sessions other hother
  · exact h

theorem UpToDate.exec {call : RegistryCall} (hspares : SparesSessions env r call) :
    (r.exec env call).UpToDate := by
  cases call with
  | upsertHost config persistFault => exact h.upsertHost config persistFault hspares
  | removeHost hostId closeFault deleteFault => exact h.removeHost hostId closeFault deleteFault
  | startRelay hostId available outcome alive =>
    exact h.startRelay env.spoolDirValid hostId available outcome alive
  | stopRelay hostId available closeFault => exact h.stopRelay hostId available closeFault
  | pollActiveSessions now available hosts => exact h.pollActiveSessions now available hosts

end

/-- In every run in which no saved configuration differs from that of a session of its host, every
connect uses the configuration that was saved last. -/
theorem connects_with_saved (env : Env) (loaded : List RemoteHostConfig)
    (calls : List RegistryCall) (r : Registry)
    (hrun : run (step env) (initial loaded) calls = some r)
    (hspares : Guarded (step env) (SparesSessions env) (initial loaded) calls) :
    ∀ made ∈ r.connects, made.saved = some made.config := by
  have hstep : ∀ s call t, SparesSessions env s call → s.UpToDate → step env s call = some t →
      t.UpToDate := by
    rintro s call _ hok hs ⟨⟩
    exact hs.exec hok
  have hinitial : (initial loaded).UpToDate := by
    refine ⟨fun hostId config hconfig => ⟨?_, hconfig⟩, ?_, ?_⟩
    · simpa using List.find?_some hconfig
    · rintro s ⟨⟩
    · rintro made ⟨⟩
  exact (Guarded.invariant hstep hinitial hspares hrun).connects

/-! ## Edits of a host with and without a session -/

def sampleEnv : Env :=
  ⟨fun path => path.toList.head? == some '/', true⟩

/-- The relay of the host has died, and a new one answers. -/
def diedPoll (hostId : String) : HostPoll :=
  ⟨.ok false, .ok false, .ok false, .ok none, none,
    .ok ⟨1, hostId, String.ofList (List.replicate 64 'a'), 0⟩, .ok true⟩

def trusting : RemoteHostConfig :=
  ⟨"build-1", "builder@old.example.org", none, none, none, .acceptNew, 10⟩

def edited : RemoteHostConfig :=
  { trusting with destination := "builder@new.example.org", hostKeyPolicy := .strict }

/-- The relay is stopped before the host is edited. -/
def stoppedEdit : List RegistryCall :=
  [.upsertHost trusting none, .startRelay "build-1" true (diedPoll "build-1").outcome (.ok true),
    .stopRelay "build-1" true none, .upsertHost edited none,
    .startRelay "build-1" true (diedPoll "build-1").outcome (.ok true)]

/-- The host is edited while its relay runs, and later the relay dies. -/
def liveEdit : List RegistryCall :=
  [.upsertHost trusting none, .startRelay "build-1" true (diedPoll "build-1").outcome (.ok true),
    .upsertHost edited none, .pollActiveSessions 1000 true diedPoll]

/-- Evaluate `SparesSessions`. -/
def sparesCheck (r : Registry) : RegistryCall → Bool
  | .upsertHost config _ => r.sessions.all fun s => s.host.id != config.id || s.host == config
  | _ => true

theorem spares_of_check {call : RegistryCall} (h : sparesCheck r call = true) :
    SparesSessions env r call := by
  cases call with
  | upsertHost config persistFault =>
    intro _ _ s hs hid
    have hsame := List.all_eq_true.1 h s hs
    simpa [hid] using hsame
  | _ => trivial

theorem connects_with_saved_stoppedEdit :
    ∃ r, run (step sampleEnv) (initial []) stoppedEdit = some r ∧
      r.connects.map ConnectMade.config = [trusting, edited] ∧
      ∀ made ∈ r.connects, made.saved = some made.config := by
  have hrun : ((run (step sampleEnv) (initial []) stoppedEdit).map fun r =>
      r.connects.map ConnectMade.config) = some [trusting, edited] := by
    decide
  obtain ⟨r, hr, hconnects⟩ := Option.map_eq_some_iff.1 hrun
  have hspares : Guarded (step sampleEnv) (SparesSessions sampleEnv) (initial []) stoppedEdit := by
    refine Guarded.of_sound sparesCheck (fun _ _ h => spares_of_check h) ?_
    decide
  exact ⟨r, hr, hconnects, connects_with_saved sampleEnv [] stoppedEdit r hr hspares⟩

/-- The reconnect goes to the old destination, with the old host-key policy. -/
theorem reconnect_ignores_edit :
    ∃ r, run (step sampleEnv) (initial []) liveEdit = some r ∧
      ⟨trusting, some edited⟩ ∈ r.connects := by
  have hrun : ((run (step sampleEnv) (initial []) liveEdit).map connects) =
      some [⟨trusting, some trusting⟩, ⟨trusting, some edited⟩] := by
    decide
  obtain ⟨r, hr, hconnects⟩ := Option.map_eq_some_iff.1 hrun
  refine ⟨r, hr, ?_⟩
  rw [hconnects]
  simp

end Registry

end Relay

end LlmNotch
