import LlmNotch.RelayIngest

/-!
# Whose session an event of a remote host changes

`Desktop` is the core with the origin of every session : the remote host whose event created it,
or none if it was created on this machine. The label of a session a relay event starts and the
key of its start carry the host, but the lookup of the next event goes by source and external
identifier only, and so does the command that follows.

`relay_isolated` : in every run in which no stored session of an event's source and external
identifier comes from elsewhere than its host, and none is evicted that does (`OwnOrigin`), the
events of a host leave all sessions alone that it did not create. `relay_reaches_local` : a session
of this machine that has the identifiers of an event is changed like one of the host.
-/

namespace LlmNotch

namespace Host

/-! ## Origins -/

/-- The origin of a session is given by its identifier. -/
structure Desktop where
  core : CoreState
  origin : String → Option String

/-- The calls of the core, with its restarts, and the events relays send. An event finds some
registered processes and traffic. -/
inductive DesktopAct where
  | core (act : CoreAct)
  | relay (event : RelaySessionEventIngest) (found : HostWorld)

/-- A session has the identifier, in memory or in the store. -/
def knows (w : World) (id : String) : Bool :=
  (w.registry.sessions.lookup id).isSome || w.db.sessions.any fun row => row.id = id

namespace Desktop

variable {cfg : CoreConfig} {d d' : Desktop}

/-- The host an event finds. -/
def host (d : Desktop) (found : HostWorld) : HostWorld :=
  { found with world := d.core.world }

/-- Sessions that were not known before are those of the creator. -/
def moved (d : Desktop) (core : CoreState) (creator : Option String) : Desktop where
  core := core
  origin id := if knows d.core.world id then d.origin id else creator

def step (cfg : CoreConfig) (d : Desktop) : DesktopAct → Option Desktop
  | .core act => (coreStep cfg d.core act).map fun core => d.moved core none
  | .relay event found =>
    some (d.moved { d.core with world := (afterRelay cfg event (d.host found)).world }
      (some event.hostId))

/-- No session of another origin has the identifiers of the event, nor is one evicted for it. -/
structure OwnOrigin (cfg : CoreConfig) (d : Desktop) (event : RelaySessionEventIngest) : Prop where
  session : ∀ id s, d.core.world.registry.sessions.lookup id = some s → s.Is event.Own →
    d.origin id = some event.hostId
  evicted : ∀ id, event.Evicts d.core.world id → d.origin id = some event.hostId
  id : OwnId cfg d.core.world (parseIpcSource event.source) event.externalSessionId

/-- No start overwrites a stored session, and the events that pass the checks of the host are
about sessions of their own origin. -/
def FromHost (cfg : CoreConfig) (d : Desktop) : DesktopAct → Prop
  | .core act => NoOverwrite cfg d.core act
  | .relay event _ => event.Checked → d.OwnOrigin cfg event

/-- The event leaves the sessions that its host did not create as they are, with their events. -/
def Isolates (cfg : CoreConfig) (d : Desktop) (event : RelaySessionEventIngest)
    (found : HostWorld) : Prop :=
  ∀ id s, d.core.world.registry.sessions.lookup id = some s →
    d.origin id ≠ some event.hostId →
    (afterRelay cfg event (d.host found)).world.registry.sessions.lookup id = some s ∧
    (afterRelay cfg event (d.host found)).world.registry.eventsFor id =
      d.core.world.registry.eventsFor id

/-- An act keeps the index of the registry and the constraints of the table. -/
theorem indexOk_step {act : DesktopAct} (hok : d.FromHost cfg act) (h : IndexOk d.core)
    (hstep : d.step cfg act = some d') : IndexOk d'.core := by
  cases act with
  | core act =>
    obtain ⟨core, hcore, rfl⟩ := Option.map_eq_some_iff.1 hstep
    exact LlmNotch.indexOk_step hok h hcore
  | relay event found =>
    cases hstep
    by_cases hchecked : event.Checked
    · have hrelaying : Relaying (d.host found) event (afterRelay cfg event (d.host found)) :=
        relaying_after h.1 (hok hchecked).id
      exact ⟨hrelaying.indexed, hrelaying.rows h.2⟩
    · have hsame : afterRelay cfg event (d.host found) = d.host found :=
        afterRelay_refused hchecked
      show IndexOk { d.core with world := (afterRelay cfg event (d.host found)).world }
      rw [hsame]
      exact h

theorem isolates_of_ownOrigin {event : RelaySessionEventIngest} {found : HostWorld}
    (h : IndexOk d.core) (hown : d.OwnOrigin cfg event) : d.Isolates cfg event found := by
  intro id s hs horigin
  have hrelaying : Relaying (d.host found) event (afterRelay cfg event (d.host found)) :=
    relaying_after h.1 hown.id
  have hother : ¬ s.Is event.Own := fun his => horigin (hown.session id s hs his)
  have hfate := hrelaying.fates.fate hs hother
  have hsame : (afterRelay cfg event (d.host found)).world.registry.sessions.lookup id =
      some s := by
    generalize (afterRelay cfg event (d.host found)).world.registry.sessions.lookup id = u
      at hfate
    cases hfate with
    | same => rfl
    | unrooted hdead => exact hdead.elim
    | gone hevicted => exact absurd (hown.evicted id hevicted) horigin
  exact ⟨hsame, hrelaying.fates.events hs hother (by rw [hsame]; rfl)⟩

end Desktop

/-- In every run whose events are about sessions of their own origin, an event leaves the sessions
alone that its host did not create. -/
theorem relay_isolated {cfg : CoreConfig} {env : Env} {settings : PublicSettings} {db : Database}
    {s₀ : CoreState} {origin : String → Option String} {acts : List DesktopAct} {d : Desktop}
    (hdb : DistinctRows db.sessions) (hstart : startCore cfg env settings db = some s₀)
    (hguard : Guarded (Desktop.step cfg) (Desktop.FromHost cfg) ⟨s₀, origin⟩ acts)
    (hrun : run (Desktop.step cfg) ⟨s₀, origin⟩ acts = some d)
    {event : RelaySessionEventIngest} {found : HostWorld}
    (hevent : d.FromHost cfg (.relay event found)) : d.Isolates cfg event found := by
  have h₀ : IndexOk s₀ := indexOk_startCore hdb hstart
  have h : IndexOk d.core :=
    Guarded.invariant (fun _ _ _ hok h hstep => Desktop.indexOk_step hok h hstep) h₀ hguard hrun
  by_cases hchecked : event.Checked
  · exact Desktop.isolates_of_ownOrigin h (hevent hchecked)
  · intro id s hs _
    have hsame : afterRelay cfg event (d.host found) = d.host found :=
      afterRelay_refused hchecked
    rw [hsame]
    exact ⟨hs, rfl⟩

/-! ## Samples -/

/-- A frame of a relay that reports a permission request. -/
def approvalFrame (sessionId : String) : Relay.RelayFrame where
  sequence := 1
  payload := .sessionEvent sessionId "generic" "Approve shell command" 9 (some .attention) none
    (some .permission)

def approvalEvent (sessionId : String) : RelaySessionEventIngest where
  hostId := "dev-box"
  externalSessionId := sessionId
  source := "generic"
  summary := "Approve shell command"
  occurredAtMs := 9
  kind := some .attention
  toolName := none
  attention := some .permission

/-- A session starts on this machine. -/
def localRun : List CoreAct :=
  CoreAct.perform 0 (.ingest (.sessionStart (sampleStart .generic "e"))) {}

/-- Whether a core that is not full accepts the next act without touching another origin. -/
def fromHost (cfg : CoreConfig) (d : Desktop) : DesktopAct → Bool
  | .core (.advance tid _) =>
    match d.core.calls.lookup tid with
    | some (.ingest (.sessionStart cmd) :: _) =>
      (d.core.world.registry.sessions.lookup
        (cfg.sessionIdFor cmd.source cmd.externalSessionId)).isNone
    | _ => true
  | .core _ => true
  | .relay event _ =>
    d.core.world.registry.len < maxSessions &&
    (d.core.world.registry.sessions.entries.all fun e =>
      !(e.2.source = parseIpcSource event.source ∧
        e.2.externalSessionId = event.externalSessionId) ||
      d.origin e.1 = some event.hostId) &&
    (d.core.world.registry.sessions.lookup (cfg.sessionIdFor (parseIpcSource event.source)
      event.externalSessionId)).all fun s =>
        s.source = parseIpcSource event.source ∧ s.externalSessionId = event.externalSessionId

theorem fromHost_ok {cfg : CoreConfig} {d : Desktop} {act : DesktopAct}
    (h : fromHost cfg d act = true) : d.FromHost cfg act := by
  cases act with
  | core act =>
    cases act with
    | call tid call => exact trivial
    | restart env settings => exact trivial
    | advance tid env =>
      intro cmd rest hcall _
      rw [fromHost, hcall] at h
      exact Or.inl (Option.isNone_iff_eq_none.1 h)
  | relay event found =>
    intro _
    simp only [fromHost, Bool.and_eq_true, decide_eq_true_eq] at h
    obtain ⟨⟨hroom, hall⟩, hid⟩ := h
    refine ⟨fun id s hs his => ?_, fun id hevicts => ?_, fun s hs => ?_⟩
    · have hmem := List.all_eq_true.1 hall _ (AList.mem_lookup_iff.1 hs)
      rw [Bool.or_eq_true, Bool.not_eq_true', decide_eq_false_iff_not, decide_eq_true_eq] at hmem
      exact hmem.resolve_left fun hnot => hnot ⟨his.1, his.2⟩
    · obtain ⟨⟨rank, hcandidate⟩, -⟩ := hevicts
      rw [SessionRegistry.capacityEvictionCandidate, if_pos hroom] at hcandidate
      cases hcandidate
    · rw [hs] at hid
      have hown : s.source = parseIpcSource event.source ∧
          s.externalSessionId = event.externalSessionId := of_decide_eq_true hid
      exact hown

/-- A session starts on this machine, and one on a remote host. -/
def remoteRun (w : World) : List DesktopAct :=
  localRun.map .core ++ [.relay (approvalEvent "r") (sampleHost w)]

/-- The host a later event finds. -/
def laterHost (w : World) : HostWorld :=
  { sampleHost w with envs := fun n => { core := { uuid := n + 20 } } }

/-- The next event of the remote host is one of its own session, and the local one stays. -/
theorem relay_isolated_update : ∃ s₀ d,
    startCore sampleCoreConfig {} sampleSettings { integrations := sampleIntegrations } =
      some s₀ ∧
    run (Desktop.step sampleCoreConfig) ⟨s₀, fun _ => none⟩ (remoteRun s₀.world) = some d ∧
    d.core.world.registry.len = 2 ∧
    (d.origin "Generic:e" = none ∧ d.origin "Generic:r" = some "dev-box") ∧
    (d.core.world.registry.eventsFor "Generic:r").length = 2 ∧
    ((afterRelay sampleCoreConfig (approvalEvent "r")
      (d.host (laterHost s₀.world))).world.registry.eventsFor "Generic:r").length = 3 ∧
    d.Isolates sampleCoreConfig (approvalEvent "r") (laterHost s₀.world) := by
  have heval : ((startCore sampleCoreConfig {} sampleSettings
      { integrations := sampleIntegrations }).bind fun s₀ =>
        (run (Desktop.step sampleCoreConfig) ⟨s₀, fun _ => none⟩ (remoteRun s₀.world)).map fun d =>
          ([checkRun (Desktop.step sampleCoreConfig) (fromHost sampleCoreConfig)
              ⟨s₀, fun _ => none⟩ (remoteRun s₀.world),
            fromHost sampleCoreConfig d (.relay (approvalEvent "r") (laterHost s₀.world))],
            d.core.world.registry.len, (d.origin "Generic:e", d.origin "Generic:r"),
            [(d.core.world.registry.eventsFor "Generic:r").length,
            ((afterRelay sampleCoreConfig (approvalEvent "r")
              (d.host (laterHost s₀.world))).world.registry.eventsFor "Generic:r").length])) =
      some ([true, true], 2, (none, some "dev-box"), [2, 3]) := by
    decide +kernel
  obtain ⟨s₀, hs₀, heval⟩ := Option.bind_eq_some_iff.1 heval
  obtain ⟨d, hd, hvalues⟩ := Option.map_eq_some_iff.1 heval
  simp only [Prod.mk.injEq, List.cons.injEq] at hvalues
  obtain ⟨⟨hcheck, hnext, -⟩, hlen, horigins, hbefore, hafter, -⟩ := hvalues
  have hguard : Guarded (Desktop.step sampleCoreConfig) (Desktop.FromHost sampleCoreConfig)
      ⟨s₀, fun _ => none⟩ (remoteRun s₀.world) :=
    Guarded.of_sound _ (fun _ _ h => fromHost_ok h) hcheck
  have hdb : DistinctRows ({ integrations := sampleIntegrations } : Database).sessions :=
    ⟨by simp, by simp⟩
  refine ⟨s₀, d, hs₀, hd, hlen, horigins, hbefore, hafter, ?_⟩
  exact relay_isolated hdb hs₀ hguard hd (fromHost_ok hnext)

/-- A remote host that uses the external identifier of the local session changes its attention,
its events and its times. -/
theorem relay_reaches_local : ∃ s₀ s t t',
    startCore sampleCoreConfig {} sampleSettings { integrations := sampleIntegrations } =
      some s₀ ∧
    run (coreStep sampleCoreConfig) s₀ localRun = some s ∧
    extractRelaySessionEvent "dev-box" (approvalFrame "e") = some (approvalEvent "e") ∧
    s.world.registry.sessions.lookup "Generic:e" = some t ∧
    (afterRelay sampleCoreConfig (approvalEvent "e")
      (sampleHost s.world)).world.registry.sessions.lookup "Generic:e" = some t' ∧
    (t.attention, t.lastEventAtMs, t.workspaceLabel) = (.none, 0, none) ∧
    (t'.attention, t'.lastEventAtMs) = (.permission, 9) ∧
    (s.world.registry.eventsFor "Generic:e").length = 1 ∧
    ((afterRelay sampleCoreConfig (approvalEvent "e")
      (sampleHost s.world)).world.registry.eventsFor "Generic:e").length = 2 := by
  have heval : ((startCore sampleCoreConfig {} sampleSettings
      { integrations := sampleIntegrations }).bind fun s₀ =>
        (run (coreStep sampleCoreConfig) s₀ localRun).bind fun s =>
          (s.world.registry.sessions.lookup "Generic:e").bind fun t =>
            ((afterRelay sampleCoreConfig (approvalEvent "e")
              (sampleHost s.world)).world.registry.sessions.lookup "Generic:e").map fun t' =>
              ((t.attention, t.lastEventAtMs, t.workspaceLabel), (t'.attention, t'.lastEventAtMs),
                (s.world.registry.eventsFor "Generic:e").length,
                ((afterRelay sampleCoreConfig (approvalEvent "e")
                  (sampleHost s.world)).world.registry.eventsFor "Generic:e").length)) =
      some ((.none, 0, none), (.permission, 9), 1, 2) := by
    decide
  obtain ⟨s₀, hs₀, heval⟩ := Option.bind_eq_some_iff.1 heval
  obtain ⟨s, hs, heval⟩ := Option.bind_eq_some_iff.1 heval
  obtain ⟨t, ht, heval⟩ := Option.bind_eq_some_iff.1 heval
  obtain ⟨t', ht', hvalues⟩ := Option.map_eq_some_iff.1 heval
  simp only [Prod.mk.injEq] at hvalues ⊢
  obtain ⟨hbefore, hafter, hone, htwo⟩ := hvalues
  exact ⟨s₀, s, t, t', hs₀, hs, rfl, ht, ht', hbefore, hafter, hone, htwo⟩

end Host

end LlmNotch
