import LlmNotch.LogReplica
import LlmNotch.StreamRefinement

/-!
# The provider of the renderer

How the renderer keeps up with the core : `connect` takes a snapshot and subscribes to the
stream, and `resync` does so again after a gap. Both are cut where they wait for the host, so
that frames arrive and the core goes on between any two of their parts (`windowStep`). The
channel may lose, repeat and reorder frames, and every call of the host may fail.

`provider_run` : whatever sequence the provider has last accepted, its state shows the core as it
was after the frame with this sequence, so it shows the snapshot of the core if it has the last
one. While it says that it is connected, it listens to the stream.
-/

namespace LlmNotch

open AppCore

/-! ## The client -/

inductive StreamAcceptance where
  | accept (nextSequence : ℕ)
  | duplicate
  | gap (expected received : ℕ)

def evaluateStreamSequence (frame : StreamFrame) : Option ℕ → StreamAcceptance
  | none => .accept frame.sequence
  | some lastSequence =>
    if frame.sequence ≤ lastSequence then .duplicate
    else if frame.sequence = lastSequence + 1 then .accept frame.sequence
    else .gap (lastSequence + 1) frame.sequence

structure TauriNativeClient where
  channel : Bool := false
  subscriptionId : Option String := none
  lastSequence : Option ℕ := none
  /-- `onFrame` and `onError`, which are set and cleared together. -/
  handlers : Bool := false

namespace TauriNativeClient

/-- `subscribe` until it calls the host; it throws if there is a channel. -/
def subscribe (client : TauriNativeClient) : Option TauriNativeClient :=
  if client.channel then none else some { client with channel := true, handlers := true }

/-- `subscribe` after the host refused. -/
def subscribeFailed (client : TauriNativeClient) : TauriNativeClient :=
  { client with channel := false, handlers := false }

/-- `unsubscribe` until it calls the host. -/
def unsubscribe (_client : TauriNativeClient) : TauriNativeClient :=
  {}

end TauriNativeClient

/-! ## The provider -/

/-- The answer of the host a call is waiting for. -/
inductive Waiting where
  | unsubscribe
  /-- The reply is there as soon as the host has taken the snapshot. -/
  | bootstrap (reply : Option SnapshotWithSequence)
  | subscribe (afterSequence : ℕ)

inductive ProviderTask where
  | connect
  | resync
  deriving DecidableEq

/-- The references of the provider, and its calls that wait. -/
structure Provider where
  client : TauriNativeClient := {}
  subscription : Bool := false
  lastSequence : Option ℕ := none
  connecting : Option Waiting
  /-- There is one while `resyncingRef` is set. -/
  resyncing : Option Waiting := none
  state : NativeState

namespace Provider

def waiting (p : Provider) : ProviderTask → Option Waiting
  | .connect => p.connecting
  | .resync => p.resyncing

def setWaiting (p : Provider) (task : ProviderTask) (waiting : Option Waiting) : Provider :=
  match task with
  | .connect => { p with connecting := waiting }
  | .resync => { p with resyncing := waiting }

def dispatch (p : Provider) (action : NativeAction) : Provider :=
  { p with state := nativeReducer p.state action }

/-- `connect` until it waits. -/
def mounted (mode : NativeClientMode) : Provider where
  connecting := some (.bootstrap none)
  state := nativeReducer (NativeState.createInitialNativeState mode) (.setConnection .loading none)

/-- `resync` until it waits; without a subscription it goes on to the snapshot. -/
def resync (p : Provider) : Provider :=
  if p.resyncing.isSome then p
  else
    let p := p.dispatch (.setConnection .resyncing none)
    if p.subscription then
      { p with
        subscription := false
        client := p.client.unsubscribe
        resyncing := some (if p.client.subscriptionId.isSome then .unsubscribe
          else .bootstrap none) }
    else { p with resyncing := some (.bootstrap none) }

/-- The `catch` of `connect` and of `resync`. -/
def fail (p : Provider) (task : ProviderTask) (message : String) : Provider :=
  (p.dispatch (.setConnection .disconnected (some message))).setWaiting task none

def startSubscription (p : Provider) (task : ProviderTask) : Provider :=
  match p.client.subscribe with
  | some client =>
    { p with client := client }.setWaiting task (some (.subscribe (client.lastSequence.getD 0)))
  | none => p.fail task "Native stream subscription is already active"

/-- Go on with a snapshot. -/
def bootstrapped (p : Provider) (task : ProviderTask) (reply : SnapshotWithSequence) : Provider :=
  let p := { p with
    client := { p.client with lastSequence := some reply.sequence }
    lastSequence := some reply.sequence }
  let p := p.dispatch (.applyBootstrap reply.snapshot reply.sequence reply.events)
  let p := if task = .resync then p.dispatch .clearResync else p
  p.startSubscription task

/-- Go on with a subscription. -/
def subscribed (p : Provider) (task : ProviderTask) (id : String) : Provider :=
  { p with
    client := { p.client with subscriptionId := some id }
    subscription := true }.setWaiting task none

/-- The handler of frames. -/
def onFrame (p : Provider) (frame : StreamFrame) : Provider :=
  match evaluateStreamSequence frame p.lastSequence with
  | .gap expected received =>
    (p.dispatch (.setResyncReason ("sequence gap: expected " ++ toString expected ++
      ", received " ++ toString received))).resync
  | .duplicate => p
  | .accept nextSequence =>
    match frame.payload with
    | .resyncRequired reason => (p.dispatch (.setResyncReason reason)).resync
    | _ => { p with lastSequence := some nextSequence }.dispatch (.applyFrame frame)

/-- The handler of errors, for the only error the client raises. -/
def handleStreamError (p : Provider) (message : String) : Provider :=
  (p.dispatch (.setResyncReason message)).resync

/-- `handleIncomingFrame` of the client. -/
def handleIncomingFrame (p : Provider) (frame : StreamFrame) : Provider :=
  match frame.payload with
  | .resyncRequired reason =>
    if p.client.handlers then
      p.handleStreamError (if reason = "" then "Native stream requested resync" else reason)
    else p
  | _ =>
    let p := { p with client := { p.client with lastSequence := some frame.sequence } }
    if p.client.handlers then p.onFrame frame else p

end Provider

/-! ## The system -/

/-- The core and a window that shows it. -/
structure Window where
  core : CoreState
  provider : Provider

inductive WindowAct where
  | core (act : CoreAct)
  /-- The channel delivers a frame the core has sent, once more or out of order. -/
  | deliver (index : ℕ)
  | resyncRequired (sequence : ℕ) (emittedAtMs : ℤ) (reason : String)
  | unsubscribeAnswers (error : Option String)
  | takeSnapshot (task : ProviderTask) (env : Env)
  | bootstrapAnswers (task : ProviderTask) (error : Option String)
  | subscribeAnswers (task : ProviderTask) (result : Except String String)
  | select (sessionId : Option String)

def windowStep (cfg : CoreConfig) (d : Window) : WindowAct → Option Window
  | .core act => (coreStep cfg d.core act).map fun core => { d with core := core }
  | .deliver index =>
    (d.core.world.frames[index]?).map fun frame =>
      { d with provider := d.provider.handleIncomingFrame frame }
  | .resyncRequired sequence emittedAtMs reason =>
    some { d with provider :=
      d.provider.handleIncomingFrame ⟨sequence, emittedAtMs, .resyncRequired reason⟩ }
  | .unsubscribeAnswers error =>
    match d.provider.resyncing with
    | some .unsubscribe =>
      some { d with provider := match error with
        | some message => d.provider.fail .resync message
        | none => d.provider.setWaiting .resync (some (.bootstrap none)) }
    | _ => none
  | .takeSnapshot task env =>
    match d.provider.waiting task with
    | some (.bootstrap none) =>
      let reply := snapshotWithSequence env d.core.world
      some { d with provider := d.provider.setWaiting task (some (.bootstrap (some reply))) }
    | _ => none
  | .bootstrapAnswers task error =>
    match d.provider.waiting task, error with
    | some (.bootstrap _), some message => some { d with provider := d.provider.fail task message }
    | some (.bootstrap (some reply)), none =>
      some { d with provider := d.provider.bootstrapped task reply }
    | _, _ => none
  | .subscribeAnswers task result =>
    match d.provider.waiting task with
    | some (.subscribe _) =>
      some { d with provider := match result with
        | .ok id => d.provider.subscribed task id
        | .error message =>
          { d.provider with client := d.provider.client.subscribeFailed }.fail task message }
    | _ => none
  | .select sessionId =>
    some { d with provider := d.provider.dispatch (.setSelectedSession sessionId) }

/-! ## What the provider shows -/

/-- Every frame has its position in the stream as its sequence. -/
def Numbered (frames : List StreamFrame) : Prop :=
  ∀ i frame, frames[i]? = some frame → frame.sequence = i + 1

/-- `m` is the mirror after the first `n` frames. -/
abbrev MirrorAt (start : Mirror) (frames : List StreamFrame) (n : ℕ) (m : Mirror) : Prop :=
  Replica (Mirror.apply AgentSession.face) start (frames.map (·.payload)) n m

/-- The state shows the core as it was after frame `n`. -/
structure Shows (start : Mirror) (frames : List StreamFrame) (n : ℕ) (st : NativeState) :
    Prop where
  sequence : st.lastSequence = some n
  ordered : st.Ordered
  mirror : MirrorAt start frames n (st.mirror AgentSession.face)

/-- A snapshot of the core as it was after the frame with its sequence. -/
structure Cuts (start : Mirror) (frames : List StreamFrame) (reply : SnapshotWithSequence) :
    Prop where
  protocol : reply.snapshot.protocolVersion = protocolVersion
  mirror : MirrorAt start frames reply.sequence
    (Mirror.ofSnapshot AgentSession.face reply.snapshot)

namespace Provider

structure Held (start : Mirror) (frames : List StreamFrame) (p : Provider) : Prop where
  shows : ∀ n, p.lastSequence = some n → Shows start frames n p.state
  replies : ∀ task reply, p.waiting task = some (.bootstrap (some reply)) →
    Cuts start frames reply

/-- Besides, a provider that listens has a sequence, and one that is connected listens. -/
structure Synced (start : Mirror) (frames : List StreamFrame) (p : Provider) : Prop
    extends Held start frames p where
  sequenced : p.client.handlers = true → p.lastSequence.isSome = true
  listens : p.state.connection = .connected → p.client.handlers = true

variable {start : Mirror} {frames : List StreamFrame} {p : Provider}

theorem waiting_setWaiting (p : Provider) (task other : ProviderTask) (w : Option Waiting) :
    (p.setWaiting task w).waiting other = if other = task then w else p.waiting other := by
  cases task <;> cases other <;> rfl

theorem Held.setWaiting (h : Held start frames p) (task : ProviderTask) {w : Option Waiting}
    (hw : ∀ reply, w = some (.bootstrap (some reply)) → Cuts start frames reply) :
    Held start frames (p.setWaiting task w) where
  shows := by
    cases task
    · exact h.shows
    · exact h.shows
  replies other reply hreply := by
    rw [waiting_setWaiting] at hreply
    split_ifs at hreply
    · exact hw reply hreply
    · exact h.replies other reply hreply

theorem Synced.setWaiting (h : Synced start frames p) (task : ProviderTask) {w : Option Waiting}
    (hw : ∀ reply, w = some (.bootstrap (some reply)) → Cuts start frames reply) :
    Synced start frames (p.setWaiting task w) where
  toHeld := h.toHeld.setWaiting task hw
  sequenced := by
    cases task
    · exact h.sequenced
    · exact h.sequenced
  listens := by
    cases task
    · exact h.listens
    · exact h.listens

/-- A status says nothing about what is shown. -/
theorem Held.status (h : Held start frames p) (connection : ConnectionStatus)
    (errorMessage resyncReason selected : Option String) :
    Held start frames { p with state := { p.state with
      connection := connection
      errorMessage := errorMessage
      resyncReason := resyncReason
      selectedSessionId := selected } } where
  shows n hn := ⟨(h.shows n hn).sequence, (h.shows n hn).ordered, (h.shows n hn).mirror⟩
  replies := h.replies

theorem Held.fail (h : Held start frames p)
    (hsequenced : p.client.handlers = true → p.lastSequence.isSome = true)
    (task : ProviderTask) (message : String) : Synced start frames (p.fail task message) := by
  have hfailed : Synced start frames
      (p.dispatch (.setConnection .disconnected (some message))) :=
    ⟨h.status .disconnected (some message) p.state.resyncReason p.state.selectedSessionId,
      hsequenced, fun hconnected => by cases hconnected⟩
  exact hfailed.setWaiting task (by rintro _ ⟨⟩)

theorem Synced.resync (h : Synced start frames p) : Synced start frames p.resync := by
  unfold Provider.resync
  split_ifs with hbusy
  · exact h
  · have hheld := h.toHeld.status .resyncing none p.state.resyncReason p.state.selectedSessionId
    have hquiet : ∀ (client : TauriNativeClient) (subscription : Bool),
        (client.handlers = true → p.client.handlers = true) →
        Synced start frames { p.dispatch (.setConnection .resyncing none) with
          client := client
          subscription := subscription } := by
      intro client subscription hclient
      refine ⟨⟨hheld.shows, hheld.replies⟩, fun hl => h.sequenced (hclient hl), fun hc => ?_⟩
      cases hc
    dsimp only
    split_ifs with hsubscribed hid
    · exact (hquiet {} false (fun hl => by cases hl)).setWaiting .resync (by rintro _ ⟨⟩)
    · exact (hquiet {} false (fun hl => by cases hl)).setWaiting .resync (by rintro _ ⟨⟩)
    · exact (hquiet p.client p.subscription id).setWaiting .resync (by rintro _ ⟨⟩)

theorem Synced.resyncFor (h : Synced start frames p) (reason : String) :
    Synced start frames (p.dispatch (.setResyncReason reason)).resync := by
  have hheld := h.toHeld.status .resyncing p.state.errorMessage (some reason)
    p.state.selectedSessionId
  exact Synced.resync ⟨hheld, h.sequenced, fun hconnected => by cases hconnected⟩

theorem Held.startSubscription (h : Held start frames p) (hsome : p.lastSequence.isSome = true)
    (task : ProviderTask) : Synced start frames (p.startSubscription task) := by
  unfold Provider.startSubscription TauriNativeClient.subscribe
  cases p.client.channel with
  | true => exact h.fail (fun _ => hsome) task _
  | false =>
    have hsubscribes : Synced start frames
        { p with client := { p.client with channel := true, handlers := true } } :=
      ⟨⟨h.shows, h.replies⟩, fun _ => hsome, fun _ => rfl⟩
    exact hsubscribes.setWaiting task (by rintro _ ⟨⟩)

theorem Held.bootstrapped (h : Held start frames p) (task : ProviderTask)
    {reply : SnapshotWithSequence} (hreply : Cuts start frames reply) :
    Synced start frames (p.bootstrapped task reply) := by
  have happlied : nativeReducer p.state (.applyBootstrap reply.snapshot reply.sequence
      reply.events) = p.state.applySnapshot reply.snapshot reply.sequence reply.events := by
    unfold nativeReducer
    exact if_neg (not_not.2 hreply.protocol)
  have hshows : Shows start frames reply.sequence
      (p.state.applySnapshot reply.snapshot reply.sequence reply.events) := by
    refine ⟨rfl, NativeState.ordered_applySnapshot _ _ _ _, ?_⟩
    rw [NativeState.mirror_applySnapshot]
    exact hreply.mirror
  have hheld : Held start frames { p with
      client := { p.client with lastSequence := some reply.sequence }
      lastSequence := some reply.sequence
      state := p.state.applySnapshot reply.snapshot reply.sequence reply.events } := by
    refine ⟨fun n hn => ?_, h.replies⟩
    cases hn
    exact hshows
  unfold Provider.bootstrapped dispatch
  dsimp only
  rw [happlied]
  split_ifs
  · refine Held.startSubscription ?_ rfl task
    exact hheld.status .connected none none
      (p.state.applySnapshot reply.snapshot reply.sequence reply.events).selectedSessionId
  · exact hheld.startSubscription rfl task

theorem Synced.subscribed (h : Synced start frames p) (task : ProviderTask) (id : String) :
    Synced start frames (p.subscribed task id) := by
  have hsubscribed : Synced start frames { p with
      client := { p.client with subscriptionId := some id }
      subscription := true } :=
    ⟨⟨h.shows, h.replies⟩, h.sequenced, h.listens⟩
  exact hsubscribed.setWaiting task (by rintro _ ⟨⟩)

theorem Synced.grow (h : Synced start frames p) (more : List StreamFrame) :
    Synced start (frames ++ more) p := by
  have hgrow : ∀ n m, MirrorAt start frames n m → MirrorAt start (frames ++ more) n m := by
    intro n m hm
    unfold MirrorAt
    rw [List.map_append]
    exact Replica.grow hm _
  refine ⟨⟨fun n hn => ?_, fun task reply hreply => ?_⟩, h.sequenced, h.listens⟩
  · exact ⟨(h.shows n hn).sequence, (h.shows n hn).ordered, hgrow _ _ (h.shows n hn).mirror⟩
  · exact ⟨(h.replies task reply hreply).protocol, hgrow _ _ (h.replies task reply hreply).mirror⟩

theorem lastSequence_applyFrame (st : NativeState) (frame : StreamFrame) :
    (st.applyFrame frame).lastSequence = some frame.sequence := by
  unfold NativeState.applyFrame
  cases frame.payload <;> rfl

/-- A frame of the core is applied if it is the next one, and is no harm otherwise. -/
theorem Synced.onFrame (h : Synced start frames p) (hnumbered : Numbered frames)
    (hlistens : p.client.handlers = true) {i : ℕ} {frame : StreamFrame}
    (hframe : frames[i]? = some frame) : Synced start frames (p.onFrame frame) := by
  obtain ⟨n, hn⟩ := Option.isSome_iff_exists.1 (h.sequenced hlistens)
  have hsequence := hnumbered i frame hframe
  unfold Provider.onFrame
  rw [hn]
  by_cases hdup : frame.sequence ≤ n
  · have hevaluated : evaluateStreamSequence frame (some n) = .duplicate := if_pos hdup
    rw [hevaluated]
    exact h
  by_cases hnext : frame.sequence = n + 1
  · have hevaluated : evaluateStreamSequence frame (some n) = .accept frame.sequence :=
      (if_neg hdup).trans (if_pos hnext)
    have hpayload : (frames.map (·.payload))[n]? = some frame.payload := by
      have hi : i = n := by omega
      rw [List.getElem?_map, ← hi, hframe]
      rfl
    have hshows := h.shows n hn
    have happlied : Synced start frames ({ p with lastSequence := some frame.sequence }.dispatch
        (.applyFrame frame)) := by
      refine ⟨⟨fun k hk => ?_, h.replies⟩, fun _ => rfl, fun _ => hlistens⟩
      cases hk
      refine ⟨lastSequence_applyFrame _ _, NativeState.ordered_applyFrame hshows.ordered _, ?_⟩
      show MirrorAt start frames _ ((p.state.applyFrame frame).mirror AgentSession.face)
      rw [NativeState.mirror_applyFrame metricBlind_face, hnext]
      exact hshows.mirror.next hpayload
    rw [hevaluated]
    dsimp only
    split
    · exact h.resyncFor _
    · exact happlied
  · have hevaluated : evaluateStreamSequence frame (some n) = .gap (n + 1) frame.sequence :=
      (if_neg hdup).trans (if_neg hnext)
    rw [hevaluated]
    exact h.resyncFor _

theorem Synced.handleIncomingFrame (h : Synced start frames p) (hnumbered : Numbered frames)
    {i : ℕ} {frame : StreamFrame} (hframe : frames[i]? = some frame) :
    Synced start frames (p.handleIncomingFrame frame) := by
  have hnoted : Synced start frames
      { p with client := { p.client with lastSequence := some frame.sequence } } :=
    ⟨⟨h.shows, h.replies⟩, h.sequenced, h.listens⟩
  unfold Provider.handleIncomingFrame
  by_cases hlistens : p.client.handlers = true
  · simp only [if_pos hlistens]
    split
    · exact h.resyncFor _
    · exact hnoted.onFrame hnumbered hlistens hframe
  · simp only [if_neg hlistens]
    split
    · exact h
    · exact hnoted

theorem Synced.resyncRequired (h : Synced start frames p) (sequence : ℕ) (emittedAtMs : ℤ)
    (reason : String) :
    Synced start frames (p.handleIncomingFrame ⟨sequence, emittedAtMs, .resyncRequired reason⟩) := by
  unfold Provider.handleIncomingFrame
  dsimp only
  split_ifs
  · exact h.resyncFor _
  · exact h.resyncFor _
  · exact h

end Provider

/-! ## Runs -/

/-- The sections of the core return. -/
def coreReturns (cfg : CoreConfig) (d : Window) : WindowAct → Bool
  | .core act => returns cfg d.core act
  | _ => true

def CoreReturns (cfg : CoreConfig) (d : Window) (act : WindowAct) : Prop :=
  coreReturns cfg d act = true

def Window.mounted (core : CoreState) (mode : NativeClientMode) : Window :=
  ⟨core, .mounted mode⟩

namespace Window

variable {cfg : CoreConfig} {d d' : Window} {s₀ : CoreState}

/-- The core runs by itself; the provider follows what it has sent since the start. -/
structure Inv (cfg : CoreConfig) (s₀ : CoreState) (d : Window) : Prop where
  reached : ∃ acts, run (coreStep cfg) s₀ acts = some d.core
  sent : Sent AgentSession.face s₀.world d.core.world
  synced : d.provider.Synced (s₀.world.mirror AgentSession.face) d.core.world.frames

theorem sent_core {s t : CoreState} {act : CoreAct} (h : Settled s.world)
    (ha : Returns cfg s act) (hstep : coreStep cfg s act = some t) :
    Sent AgentSession.face s.world t.world := by
  refine sent_step metricBlind_face h ha ?_ hstep
  cases act with
  | advance tid env => exact fun sec rest _ => unseen_face s.world sec
  | _ => exact trivial

/-- A core that has sent nothing before numbers its frames from one. -/
theorem numbered_of_sent (hframes : s₀.world.frames = [])
    (hzero : s₀.world.inner.streamSequence = 0)
    (h : Sent AgentSession.face s₀.world d.core.world) :
    Numbered d.core.world.frames ∧
      d.core.world.inner.streamSequence = d.core.world.frames.length ∧
      d.core.world.mirror AgentSession.face = (d.core.world.frames.map (·.payload)).foldl
        (Mirror.apply AgentSession.face) (s₀.world.mirror AgentSession.face) := by
  obtain ⟨-, fs, hfs⟩ := h
  have hall : d.core.world.frames = fs := by rw [hfs.frames, hframes, List.nil_append]
  rw [hall]
  refine ⟨fun i frame hframe => ?_, ?_, hfs.mirror⟩
  · have hsequence : (fs.map (·.sequence))[i]? = some frame.sequence := by
      rw [List.getElem?_map, hframe]
      rfl
    have hlt : i < fs.length := (List.getElem?_eq_some_iff.1 hframe).1
    rw [hfs.numbered, hzero, List.getElem?_range' hlt] at hsequence
    have heq := Option.some.inj hsequence
    omega
  · rw [hfs.sequence, hzero, Nat.zero_add]

theorem inv_mounted (cfg : CoreConfig) (h : Settled s₀.world) (mode : NativeClientMode) :
    (mounted s₀ mode).Inv cfg s₀ where
  reached := ⟨[], run_nil _ _⟩
  sent := Sent.refl h
  synced := by
    refine ⟨⟨?_, ?_⟩, ?_, ?_⟩
    · rintro n ⟨⟩
    · rintro (_ | _) reply ⟨⟩
    · rintro ⟨⟩
    · rintro ⟨⟩

/-- A snapshot that is taken now cuts the stream where the core is. -/
theorem Inv.cuts {env₀ : Env} {settings : PublicSettings} {db : Database} (h : d.Inv cfg s₀)
    (hstart : startCore cfg env₀ settings db = some s₀) (env : Env) :
    Cuts (s₀.world.mirror AgentSession.face) d.core.world.frames
      (snapshotWithSequence env d.core.world) := by
  obtain ⟨acts, hrun⟩ := h.reached
  obtain ⟨-, hframes, hzero⟩ := settled_startCore hstart
  obtain ⟨-, hsequence, hmirror⟩ := numbered_of_sent hframes hzero h.sent
  refine ⟨rfl, ?_⟩
  rw [mirror_snapshot env (keyed_run hstart hrun), hmirror]
  have hlength : (snapshotWithSequence env d.core.world).sequence =
      (d.core.world.frames.map (·.payload)).length := by
    rw [List.length_map]
    exact hsequence
  unfold MirrorAt
  rw [hlength]
  exact Replica.latest

theorem Inv.step {env₀ : Env} {settings : PublicSettings} {db : Database} {act : WindowAct}
    (h : d.Inv cfg s₀) (hstart : startCore cfg env₀ settings db = some s₀)
    (hreturns : CoreReturns cfg d act) (hstep : windowStep cfg d act = some d') :
    d'.Inv cfg s₀ := by
  obtain ⟨-, hframes, hzero⟩ := settled_startCore hstart
  obtain ⟨hnumbered, -⟩ := numbered_of_sent hframes hzero h.sent
  have hprovider : ∀ p : Provider,
      p.Synced (s₀.world.mirror AgentSession.face) d.core.world.frames →
      Inv cfg s₀ { d with provider := p } := fun p hp => ⟨h.reached, h.sent, hp⟩
  cases act with
  | core act =>
    obtain ⟨core, hcore, rfl⟩ := Option.map_eq_some_iff.1 hstep
    have hsent := sent_core h.sent.1 hreturns hcore
    obtain ⟨-, fs, hfs⟩ := id hsent
    obtain ⟨acts, hrun⟩ := h.reached
    refine ⟨⟨acts ++ [act], run_append.2 ⟨_, hrun, run_cons.2 ⟨core, hcore, run_nil _ _⟩⟩⟩,
      h.sent.trans hsent, ?_⟩
    dsimp only
    rw [hfs.frames]
    exact h.synced.grow fs
  | deliver index =>
    obtain ⟨frame, hframe, rfl⟩ := Option.map_eq_some_iff.1 hstep
    exact hprovider _ (h.synced.handleIncomingFrame hnumbered hframe)
  | resyncRequired sequence emittedAtMs reason =>
    cases hstep
    exact hprovider _ (h.synced.resyncRequired sequence emittedAtMs reason)
  | unsubscribeAnswers error =>
    dsimp only [windowStep] at hstep
    split at hstep
    · cases hstep
      refine hprovider _ ?_
      cases error with
      | some message => exact h.synced.toHeld.fail h.synced.sequenced .resync message
      | none => exact h.synced.setWaiting .resync (by rintro _ ⟨⟩)
    · cases hstep
  | takeSnapshot task env =>
    dsimp only [windowStep] at hstep
    split at hstep
    · cases hstep
      refine hprovider _ (h.synced.setWaiting task ?_)
      rintro reply ⟨⟩
      exact h.cuts hstart env
    · cases hstep
  | bootstrapAnswers task error =>
    dsimp only [windowStep] at hstep
    split at hstep
    · cases hstep
      exact hprovider _ (h.synced.toHeld.fail h.synced.sequenced task _)
    · next reply hwaiting =>
      cases hstep
      exact hprovider _ (h.synced.toHeld.bootstrapped task (h.synced.replies task reply hwaiting))
    · cases hstep
  | subscribeAnswers task result =>
    dsimp only [windowStep] at hstep
    split at hstep
    · cases hstep
      refine hprovider _ ?_
      cases result with
      | ok id => exact h.synced.subscribed task id
      | error message =>
        have hfailed : Provider.Held (s₀.world.mirror AgentSession.face) d.core.world.frames
            { d.provider with client := d.provider.client.subscribeFailed } :=
          ⟨h.synced.shows, h.synced.replies⟩
        exact hfailed.fail (by rintro ⟨⟩) task message
    · cases hstep
  | select sessionId =>
    cases hstep
    exact hprovider _ ⟨h.synced.toHeld.status d.provider.state.connection
      d.provider.state.errorMessage d.provider.state.resyncReason sessionId,
      h.synced.sequenced, h.synced.listens⟩

end Window

/-- However frames are lost, repeated and reordered and whatever calls of the host fail, the
provider shows the core as it was after the last frame it has accepted, and the snapshot of the
core if there was none since. It listens while it says that it is connected. -/
theorem provider_run {cfg : CoreConfig} {env₀ : Env} {settings : PublicSettings} {db : Database}
    {s₀ : CoreState} {mode : NativeClientMode} {acts : List WindowAct} {d : Window}
    (hstart : startCore cfg env₀ settings db = some s₀)
    (hok : Guarded (windowStep cfg) (CoreReturns cfg) (.mounted s₀ mode) acts)
    (hrun : run (windowStep cfg) (.mounted s₀ mode) acts = some d) :
    (d.provider.state.connection = .connected → d.provider.client.handlers = true) ∧
    ∀ n, d.provider.lastSequence = some n →
      n ≤ d.core.world.inner.streamSequence ∧
      Shows (s₀.world.mirror AgentSession.face) d.core.world.frames n d.provider.state ∧
      (n = d.core.world.inner.streamSequence → ∀ env,
        Follows d.provider.state (snapshotWithSequence env d.core.world).snapshot) := by
  obtain ⟨hsettled, hframes, hzero⟩ := settled_startCore hstart
  have hinv : d.Inv cfg s₀ :=
    Guarded.invariant (fun _ _ _ hreturns h hstep => h.step hstart hreturns hstep)
      (Window.inv_mounted cfg hsettled mode) hok hrun
  obtain ⟨hnumbered, hsequence, hmirror⟩ := Window.numbered_of_sent hframes hzero hinv.sent
  refine ⟨hinv.synced.listens, fun n hn => ?_⟩
  have hshows := hinv.synced.shows n hn
  have hbound := hshows.mirror.bound
  rw [List.length_map] at hbound
  refine ⟨hsequence ▸ hbound, hshows, fun hlast env => ?_⟩
  obtain ⟨cacts, hcore⟩ := hinv.reached
  refine follows_of_mirror env (keyed_run hstart hcore) hshows.ordered ?_
  rw [hmirror]
  refine hshows.mirror.eq_latest ?_
  rw [List.length_map, hlast, hsequence]

/-- The host answers as it should. -/
def answers (task : ProviderTask) (id : String) : List WindowAct :=
  [.takeSnapshot task {}, .bootstrapAnswers task none, .subscribeAnswers task (.ok id)]

/-- The second frame is lost, and the third one makes the provider start again. -/
def lostFrame : List WindowAct :=
  answers .connect "first" ++ (beforeSnapshot ++ afterSnapshot).map .core ++
    [.deliver 0, .deliver 2, .unsubscribeAnswers none] ++ answers .resync "second"

theorem provider_run_lostFrame :
    ∃ s₀ d, startCore sampleCoreConfig {} sampleSettings
        { integrations := sampleIntegrations } = some s₀ ∧
      run (windowStep sampleCoreConfig) (.mounted s₀ .preview) lostFrame = some d ∧
      d.core.world.frames.length = 8 ∧ d.provider.client.subscriptionId = some "second" ∧
      Follows d.provider.state (snapshotWithSequence {} d.core.world).snapshot := by
  have hrun : ((startCore sampleCoreConfig {} sampleSettings
      { integrations := sampleIntegrations }).bind fun s₀ =>
        (run (windowStep sampleCoreConfig) (.mounted s₀ .preview) lostFrame).map fun d =>
          (checkRun (windowStep sampleCoreConfig) (coreReturns sampleCoreConfig)
            (.mounted s₀ .preview) lostFrame, d.provider.lastSequence,
            d.core.world.inner.streamSequence, d.core.world.frames.length,
            d.provider.client.subscriptionId)) = some (true, some 8, 8, 8, some "second") := by
    decide
  obtain ⟨s₀, hs₀, hrun⟩ := Option.bind_eq_some_iff.1 hrun
  obtain ⟨d, hd, hvalues⟩ := Option.map_eq_some_iff.1 hrun
  simp only [Prod.mk.injEq] at hvalues
  obtain ⟨hcheck, hlast, hsequence, hlength, hid⟩ := hvalues
  have hok : Guarded (windowStep sampleCoreConfig) (CoreReturns sampleCoreConfig)
      (.mounted s₀ .preview) lostFrame :=
    Guarded.of_sound _ (fun _ _ h => h) hcheck
  refine ⟨s₀, d, hs₀, hd, hlength, hid, ?_⟩
  exact ((provider_run hs₀ hok hd).2 8 hlast).2.2 hsequence.symm {}

end LlmNotch
