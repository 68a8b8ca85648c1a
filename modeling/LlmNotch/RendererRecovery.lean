import LlmNotch.RendererProvider

/-!
# The provider recovers

As long as no call of the host fails, the provider is never stuck : it waits for the host or it
listens under a subscription (`Calling.listens`), although `connect` and `resync` may overlap.
`provider_recovers` : from every state in which it waits for nothing, a frame beyond the next one
makes it start again, and with the answers of the host it is connected and has the sequence of
the core.
-/

namespace LlmNotch

open AppCore

/-- The calls of the host do not fail. -/
def answered : WindowAct → Bool
  | .unsubscribeAnswers error => error.isNone
  | .bootstrapAnswers _ error => error.isNone
  | .subscribeAnswers _ result => result.isOk
  | _ => true

/-- What `connect` and `resync` wait for, whether there are handlers, and whether the subscription
is known. -/
inductive Phase : Option Waiting → Option Waiting → Bool → Bool → Prop
  | connects (reply : Option SnapshotWithSequence) : Phase (some (.bootstrap reply)) none false false
  | opens (afterSequence : ℕ) : Phase (some (.subscribe afterSequence)) none true false
  | idle : Phase none none true true
  | closes : Phase none (some .unsubscribe) false false
  | refreshes (reply : Option SnapshotWithSequence) :
    Phase none (some (.bootstrap reply)) false false
  | reopens (afterSequence : ℕ) : Phase none (some (.subscribe afterSequence)) true false
  /-- A gap before the first subscription is known, which therefore stays. -/
  | overlaps (afterSequence : ℕ) (reply : Option SnapshotWithSequence) :
    Phase (some (.subscribe afterSequence)) (some (.bootstrap reply)) true false
  | lags (reply : Option SnapshotWithSequence) : Phase none (some (.bootstrap reply)) true true

structure Calling (p : Provider) : Prop where
  phase : Phase p.connecting p.resyncing p.client.handlers p.subscription
  channel : p.client.channel = p.client.handlers
  id : p.client.subscriptionId.isSome = p.subscription

namespace Calling

variable {p : Provider}

/-- Waiting for nothing means listening. -/
theorem listens (h : Calling p) (hconnect : p.connecting = none) (hresync : p.resyncing = none) :
    p.client.channel = true ∧ p.client.handlers = true ∧ p.subscription = true ∧
      p.client.subscriptionId.isSome = true := by
  have hphase := h.phase
  rw [hconnect, hresync] at hphase
  have hboth : p.client.handlers = true ∧ p.subscription = true := by
    generalize p.client.handlers = handlers at hphase
    generalize p.subscription = subscription at hphase
    cases hphase
    exact ⟨rfl, rfl⟩
  exact ⟨h.channel.trans hboth.1, hboth.1, hboth.2, h.id.trans hboth.2⟩

theorem mounted (mode : NativeClientMode) : Calling (.mounted mode) :=
  ⟨.connects none, rfl, rfl⟩

/-- A gap or a request to start again. -/
theorem resync (h : Calling p) (hlistens : p.client.handlers = true) : Calling p.resync := by
  obtain ⟨⟨channel, subscriptionId, last, handlers⟩, subscription, lastSequence, connecting,
    resyncing, state⟩ := p
  obtain ⟨hphase, hchannel, hid⟩ := h
  dsimp only at hphase hchannel hid hlistens
  cases hphase with
  | connects reply => cases hlistens
  | opens afterSequence => exact ⟨.overlaps afterSequence none, hchannel, hid⟩
  | idle =>
    unfold Provider.resync
    dsimp only [Option.isSome_none, Provider.dispatch]
    rw [if_neg Bool.false_ne_true, if_pos rfl, if_pos hid]
    exact ⟨.closes, rfl, rfl⟩
  | closes => cases hlistens
  | refreshes reply => cases hlistens
  | reopens afterSequence => exact ⟨.reopens afterSequence, hchannel, hid⟩
  | overlaps afterSequence reply => exact ⟨.overlaps afterSequence reply, hchannel, hid⟩
  | lags reply => exact ⟨.lags reply, hchannel, hid⟩

theorem onFrame (h : Calling p) (hlistens : p.client.handlers = true) (frame : StreamFrame) :
    Calling (p.onFrame frame) := by
  have hsame : ∀ state, Calling { p with state := state } :=
    fun state => ⟨h.phase, h.channel, h.id⟩
  unfold Provider.onFrame
  split
  · exact (hsame _).resync hlistens
  · exact h
  · split
    · exact (hsame _).resync hlistens
    · exact ⟨h.phase, h.channel, h.id⟩

theorem handleIncomingFrame (h : Calling p) (frame : StreamFrame) :
    Calling (p.handleIncomingFrame frame) := by
  have hnoted : Calling { p with client := { p.client with lastSequence := some frame.sequence } } :=
    ⟨h.phase, h.channel, h.id⟩
  have hsame : ∀ state, Calling { p with state := state } :=
    fun state => ⟨h.phase, h.channel, h.id⟩
  unfold Provider.handleIncomingFrame
  by_cases hlistens : p.client.handlers = true
  · simp only [if_pos hlistens]
    split
    · exact (hsame _).resync hlistens
    · exact hnoted.onFrame hlistens frame
  · simp only [if_neg hlistens]
    split
    · exact h
    · exact hnoted

variable {task : ProviderTask}

/-- The snapshot is there; the call still waits for it. -/
theorem takeSnapshot (h : Calling p) (hwaiting : p.waiting task = some (.bootstrap none))
    (reply : SnapshotWithSequence) :
    Calling (p.setWaiting task (some (.bootstrap (some reply)))) := by
  obtain ⟨⟨channel, subscriptionId, last, handlers⟩, subscription, lastSequence, connecting,
    resyncing, state⟩ := p
  obtain ⟨hphase, hchannel, hid⟩ := h
  dsimp only at hphase hchannel hid
  cases task with
  | connect =>
    obtain rfl : connecting = some (.bootstrap none) := hwaiting
    cases hphase
    exact ⟨.connects _, hchannel, hid⟩
  | resync =>
    obtain rfl : resyncing = some (.bootstrap none) := hwaiting
    cases hphase with
    | refreshes => exact ⟨.refreshes _, hchannel, hid⟩
    | overlaps afterSequence => exact ⟨.overlaps afterSequence _, hchannel, hid⟩
    | lags => exact ⟨.lags _, hchannel, hid⟩

/-- A call subscribes, unless there is a channel from before. -/
theorem bootstrapped (h : Calling p) {answer : Option SnapshotWithSequence}
    (hwaiting : p.waiting task = some (.bootstrap answer)) (reply : SnapshotWithSequence) :
    Calling (p.bootstrapped task reply) := by
  obtain ⟨⟨channel, subscriptionId, last, handlers⟩, subscription, lastSequence, connecting,
    resyncing, state⟩ := p
  obtain ⟨hphase, hchannel, hid⟩ := h
  dsimp only at hphase hchannel hid
  subst hchannel
  cases task with
  | connect =>
    obtain rfl : connecting = some (.bootstrap answer) := hwaiting
    cases hphase
    exact ⟨.opens reply.sequence, rfl, hid⟩
  | resync =>
    obtain rfl : resyncing = some (.bootstrap answer) := hwaiting
    cases hphase with
    | refreshes => exact ⟨.reopens reply.sequence, rfl, hid⟩
    | overlaps afterSequence => exact ⟨.opens afterSequence, rfl, hid⟩
    | lags => exact ⟨.idle, rfl, hid⟩

theorem subscribed (h : Calling p) {afterSequence : ℕ}
    (hwaiting : p.waiting task = some (.subscribe afterSequence)) (id : String) :
    Calling (p.subscribed task id) := by
  obtain ⟨⟨channel, subscriptionId, last, handlers⟩, subscription, lastSequence, connecting,
    resyncing, state⟩ := p
  obtain ⟨hphase, hchannel, -⟩ := h
  dsimp only at hphase hchannel
  cases task with
  | connect =>
    obtain rfl : connecting = some (.subscribe afterSequence) := hwaiting
    cases hphase with
    | opens => exact ⟨.idle, hchannel, rfl⟩
    | overlaps _ reply => exact ⟨.lags reply, hchannel, rfl⟩
  | resync =>
    obtain rfl : resyncing = some (.subscribe afterSequence) := hwaiting
    cases hphase
    exact ⟨.idle, hchannel, rfl⟩

theorem unsubscribed (h : Calling p) (hwaiting : p.resyncing = some .unsubscribe) :
    Calling (p.setWaiting .resync (some (.bootstrap none))) := by
  obtain ⟨client, subscription, lastSequence, connecting, resyncing, state⟩ := p
  obtain ⟨hphase, hchannel, hid⟩ := h
  obtain rfl : resyncing = some .unsubscribe := hwaiting
  dsimp only at hphase hchannel hid
  generalize hhandlers : client.handlers = handlers at hphase
  cases hphase
  exact ⟨hhandlers ▸ .refreshes none, hchannel, hid⟩

theorem step {cfg : CoreConfig} {d d' : Window} {act : WindowAct} (h : Calling d.provider)
    (hanswered : answered act = true) (hstep : windowStep cfg d act = some d') :
    Calling d'.provider := by
  cases act with
  | core act =>
    obtain ⟨core, -, rfl⟩ := Option.map_eq_some_iff.1 hstep
    exact h
  | deliver index =>
    obtain ⟨frame, -, rfl⟩ := Option.map_eq_some_iff.1 hstep
    exact h.handleIncomingFrame frame
  | resyncRequired sequence emittedAtMs reason =>
    cases hstep
    exact h.handleIncomingFrame ⟨sequence, emittedAtMs, .resyncRequired reason⟩
  | unsubscribeAnswers error =>
    dsimp only [windowStep] at hstep
    split at hstep
    · next hwaiting =>
      cases hstep
      cases error with
      | some message => cases hanswered
      | none => exact h.unsubscribed hwaiting
    · cases hstep
  | takeSnapshot task env =>
    dsimp only [windowStep] at hstep
    split at hstep
    · next hwaiting =>
      cases hstep
      exact h.takeSnapshot hwaiting _
    · cases hstep
  | bootstrapAnswers task error =>
    dsimp only [windowStep] at hstep
    split at hstep
    · cases hanswered
    · next reply hwaiting =>
      cases hstep
      exact h.bootstrapped hwaiting reply
    · cases hstep
  | subscribeAnswers task result =>
    dsimp only [windowStep] at hstep
    split at hstep
    · next afterSequence hwaiting =>
      cases hstep
      cases result with
      | ok id => exact h.subscribed hwaiting id
      | error message => cases hanswered
    · cases hstep
  | select sessionId =>
    cases hstep
    exact ⟨h.phase, h.channel, h.id⟩

end Calling

/-! ## Starting again -/

/-- A frame is lost, and the host answers. -/
def recovery (index : ℕ) (env : Env) (id : String) : List WindowAct :=
  [.deliver index, .unsubscribeAnswers none, .takeSnapshot .resync env,
    .bootstrapAnswers .resync none, .subscribeAnswers .resync (.ok id)]

/-- The provider has what the core has, and waits for nothing. -/
structure CaughtUp (d : Window) : Prop where
  connecting : d.provider.connecting = none
  resyncing : d.provider.resyncing = none
  connection : d.provider.state.connection = .connected
  handlers : d.provider.client.handlers = true
  lastSequence : d.provider.lastSequence = some d.core.world.inner.streamSequence

/-- A gap ends the subscription, if nothing else is under way. -/
theorem Calling.gap {p : Provider} (h : Calling p) (hconnect : p.connecting = none)
    (hresync : p.resyncing = none) {n : ℕ} {frame : StreamFrame} (hn : p.lastSequence = some n)
    (hgap : n + 1 < frame.sequence) :
    ∃ state, p.handleIncomingFrame frame =
      ⟨{}, false, some n, none, some .unsubscribe, state⟩ := by
  obtain ⟨hchannel, hhandlers, hsubscription, hid⟩ := h.listens hconnect hresync
  obtain ⟨⟨channel, subscriptionId, last, handlers⟩, subscription, lastSequence, connecting,
    resyncing, st⟩ := p
  dsimp only at hconnect hresync hn hchannel hhandlers hsubscription hid
  subst hconnect hresync hn hchannel hhandlers hsubscription
  have hresyncs : ∀ last state,
      Provider.resync ⟨⟨true, subscriptionId, last, true⟩, true, some n, none, none, state⟩ =
        ⟨{}, false, some n, none, some .unsubscribe,
          nativeReducer state (.setConnection .resyncing none)⟩ := by
    intro last state
    unfold Provider.resync
    dsimp only [Option.isSome_none, Provider.dispatch]
    rw [if_neg Bool.false_ne_true, if_pos rfl, if_pos hid]
    rfl
  have hevaluated : evaluateStreamSequence frame (some n) = .gap (n + 1) frame.sequence := by
    refine (if_neg ?_).trans (if_neg ?_)
    · omega
    · omega
  unfold Provider.handleIncomingFrame
  split
  · exact ⟨_, hresyncs _ _⟩
  · dsimp only
    rw [if_pos rfl, Provider.onFrame, hevaluated]
    exact ⟨_, hresyncs _ _⟩

/-- A provider that waits for nothing recovers from a gap. -/
theorem Calling.recovers {cfg : CoreConfig} {d : Window} (h : Calling d.provider)
    (hconnect : d.provider.connecting = none) (hresync : d.provider.resyncing = none)
    {index n : ℕ} {frame : StreamFrame} (hframe : d.core.world.frames[index]? = some frame)
    (hn : d.provider.lastSequence = some n) (hgap : n + 1 < frame.sequence) (env : Env)
    (id : String) :
    ∃ d', run (windowStep cfg) d (recovery index env id) = some d' ∧ d'.core = d.core ∧
      CaughtUp d' := by
  obtain ⟨state, hstarted⟩ := h.gap hconnect hresync hn hgap
  have hdelivered : windowStep cfg d (.deliver index) =
      some ⟨d.core, ⟨{}, false, some n, none, some .unsubscribe, state⟩⟩ := by
    show (d.core.world.frames[index]?).map _ = _
    rw [hframe, Option.map_some, hstarted]
  refine ⟨_, run_cons.2 ⟨_, hdelivered, run_cons.2 ⟨_, rfl, run_cons.2 ⟨_, rfl, run_cons.2
    ⟨_, rfl, run_cons.2 ⟨_, rfl, run_nil _ _⟩⟩⟩⟩⟩, rfl, ?_⟩
  exact ⟨rfl, rfl, rfl, rfl, rfl⟩

/-- In every run in which no call of the host fails, the provider waits for the host or listens,
and while it listens, a gap makes it catch up with the core. -/
theorem provider_recovers {cfg : CoreConfig} {s₀ : CoreState} {mode : NativeClientMode}
    {acts : List WindowAct} {d : Window}
    (hok : Guarded (windowStep cfg) (fun _ act => answered act = true) (.mounted s₀ mode) acts)
    (hrun : run (windowStep cfg) (.mounted s₀ mode) acts = some d)
    (hconnect : d.provider.connecting = none) (hresync : d.provider.resyncing = none) :
    (d.provider.client.handlers = true ∧ d.provider.subscription = true) ∧
    ∀ index frame n, d.core.world.frames[index]? = some frame →
      d.provider.lastSequence = some n → n + 1 < frame.sequence → ∀ env id,
        ∃ d', run (windowStep cfg) d (recovery index env id) = some d' ∧ d'.core = d.core ∧
          CaughtUp d' := by
  have hcalling : Calling d.provider :=
    Guarded.invariant (fun _ _ _ hanswered h hstep => Calling.step h hanswered hstep)
      (Calling.mounted mode) hok hrun
  obtain ⟨-, hhandlers, hsubscription, -⟩ := hcalling.listens hconnect hresync
  refine ⟨⟨hhandlers, hsubscription⟩, fun index frame n hframe hn hgap env id => ?_⟩
  exact hcalling.recovers hconnect hresync hframe hn hgap env id

/-- Eight frames of the core, none of them delivered. -/
def unseenFrames : List WindowAct :=
  answers .connect "first" ++ (beforeSnapshot ++ afterSnapshot).map .core

theorem provider_recovers_unseen :
    ∃ s₀ d d', startCore sampleCoreConfig {} sampleSettings
        { integrations := sampleIntegrations } = some s₀ ∧
      run (windowStep sampleCoreConfig) (.mounted s₀ .preview) unseenFrames = some d ∧
      run (windowStep sampleCoreConfig) d (recovery 2 {} "second") = some d' ∧ CaughtUp d' := by
  have hrun : ((startCore sampleCoreConfig {} sampleSettings
      { integrations := sampleIntegrations }).bind fun s₀ =>
        (run (windowStep sampleCoreConfig) (.mounted s₀ .preview) unseenFrames).map fun d =>
          (checkRun (windowStep sampleCoreConfig) (fun _ => answered) (.mounted s₀ .preview)
            unseenFrames, d.provider.connecting.isNone, d.provider.resyncing.isNone,
            d.provider.lastSequence, d.core.world.frames[2]?.map (·.sequence))) =
        some (true, true, true, some 0, some 3) := by
    decide
  obtain ⟨s₀, hs₀, hrun⟩ := Option.bind_eq_some_iff.1 hrun
  obtain ⟨d, hd, hvalues⟩ := Option.map_eq_some_iff.1 hrun
  simp only [Prod.mk.injEq] at hvalues
  obtain ⟨hcheck, hconnect, hresync, hlast, hthird⟩ := hvalues
  obtain ⟨frame, hframe, hsequence⟩ := Option.map_eq_some_iff.1 hthird
  have hok : Guarded (windowStep sampleCoreConfig) (fun _ act => answered act = true)
      (.mounted s₀ .preview) unseenFrames :=
    Guarded.of_sound (fun _ => answered) (fun _ _ h => h) hcheck
  obtain ⟨d', hd', -, hcaught⟩ := (provider_recovers hok hd (Option.isNone_iff_eq_none.1 hconnect)
    (Option.isNone_iff_eq_none.1 hresync)).2 2 frame 0 hframe hlast (by omega) {} "second"
  exact ⟨s₀, d, d', hs₀, hd, hd', hcaught⟩

end LlmNotch
