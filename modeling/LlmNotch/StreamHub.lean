import LlmNotch.Stream
import LlmNotch.Transition

/-!
# The hub between the core and the windows

The hub keeps the last frames of the core for replay and hands every frame to the
subscribed windows. `publish` takes the lock to check and buffer a frame and to copy the
list of subscribers, and sends after it has released the lock; `subscribe` replays and
registers under the lock.

`hubStep` interleaves one publisher with subscribers : the locked section of `publish`,
each of its sends and the removal of the senders that failed are steps of their own. A
`HubWorld` also records what happened : the frames `publish` took and what every sender
delivered.
-/

namespace LlmNotch

namespace Hub

/-- The random identifier of a subscriber. -/
abbrev SubscriberId := Fin (2 ^ 128)

def maxStreamFrameBytes : ℕ := 65536

inductive PublishError where
  | frameTooLarge
  | sequenceMismatch (expected received : ℕ)
  deriving DecidableEq

inductive SubscribeError where
  | invalidWindowLabel
  | replayGap (afterSequence : ℕ)
  | deliveryFailed
  deriving DecidableEq

structure HubInner where
  frames : List StreamFrame := []
  /-- The window label of every subscriber. -/
  subscribers : Dict SubscriberId String := ∅

/-- Addition on 64-bit sequence numbers. -/
def saturatingAdd (m n : ℕ) : ℕ :=
  min (m + n) (2 ^ 64 - 1)

/-- Drop frames at the front while there are too many. -/
def evict (bufferCapacity : ℕ) : List StreamFrame → List StreamFrame
  | [] => []
  | f :: fs => if bufferCapacity < (f :: fs).length then evict bufferCapacity fs else f :: fs

namespace HubInner

/-- The sequence number `publish` asks for. -/
def expected (inner : HubInner) : ℕ :=
  (inner.frames.getLast?.map fun last => saturatingAdd last.sequence 1).getD 1

def latestSequence (inner : HubInner) : ℕ :=
  (inner.frames.getLast?.map (·.sequence)).getD 0

def oldestSequence (inner : HubInner) : ℕ :=
  (inner.frames.head?.map (·.sequence)).getD 1

def replaySince (inner : HubInner) (sequence : ℕ) : List StreamFrame :=
  inner.frames.filter (sequence < ·.sequence)

end HubInner

/-- The frame fits; `bytes` is the length of its JSON text, if it can be serialized. -/
def InLimit (bytes : StreamFrame → Option ℕ) (frame : StreamFrame) : Prop :=
  (bytes frame).getD (2 ^ 64 - 1) ≤ maxStreamFrameBytes

instance (bytes : StreamFrame → Option ℕ) (frame : StreamFrame) : Decidable (InLimit bytes frame) :=
  inferInstanceAs (Decidable (_ ≤ _))

/-- `publish` up to its sends, with the subscribers it will send to. -/
def publish (bytes : StreamFrame → Option ℕ) (bufferCapacity : ℕ) (inner : HubInner)
    (frame : StreamFrame) : Except PublishError (HubInner × List SubscriberId) :=
  if ¬InLimit bytes frame then .error .frameTooLarge
  else if frame.sequence ≠ inner.expected then
    .error (.sequenceMismatch inner.expected frame.sequence)
  else .ok ({ inner with frames := evict bufferCapacity (inner.frames ++ [frame]) },
    inner.subscribers.keys)

/-- The frames a sender takes until it fails, and whether it took all of them. -/
def replay (send : StreamFrame → Bool) : List StreamFrame → List StreamFrame × Bool
  | [] => ([], true)
  | f :: fs => if send f then (f :: (replay send fs).1, (replay send fs).2) else ([], false)

/-- A replay after the sequence number would miss frames, or the number is not there yet. -/
def ReplayGap (inner : HubInner) (afterSequence : ℕ) : Prop :=
  inner.latestSequence < afterSequence ∨
    (0 < inner.latestSequence ∧ saturatingAdd afterSequence 1 < inner.oldestSequence)

instance (inner : HubInner) (afterSequence : ℕ) : Decidable (ReplayGap inner afterSequence) :=
  inferInstanceAs (Decidable (_ ∨ _))

/-- `subscribe`, with the frames it replayed. -/
def subscribe (inner : HubInner) (windowLabel : String) (afterSequence : ℕ)
    (send : StreamFrame → Bool) (id : SubscriberId) :
    Except SubscribeError (HubInner × List StreamFrame) :=
  if ¬(windowLabel = "overlay" ∨ windowLabel = "dashboard") then .error .invalidWindowLabel
  else if ReplayGap inner afterSequence then .error (.replayGap afterSequence)
  else
    match replay send (inner.replaySince afterSequence) with
    | (_, false) => .error .deliveryFailed
    | (delivered, true) =>
      .ok ({ inner with subscribers := inner.subscribers.insert id windowLabel }, delivered)

def unsubscribe (inner : HubInner) (id : SubscriberId) (windowLabel : String) :
    HubInner × Bool :=
  if inner.subscribers.lookup id = some windowLabel then
    ({ inner with subscribers := inner.subscribers.erase id }, true)
  else (inner, false)

/-! ## Interleavings -/

/-- A `publish` between its locked section and its return. -/
structure Publishing where
  frame : StreamFrame
  /-- Subscribers it has still to send to. -/
  waiting : List SubscriberId
  failed : List SubscriberId := []

structure HubWorld where
  inner : HubInner := {}
  publishing : Option Publishing := none
  /-- The stream sequence of the core. -/
  streamSequence : ℕ := 0
  /-- The frames `publish` took. -/
  published : List StreamFrame := []
  /-- What the sender of a subscriber delivered. -/
  received : SubscriberId → List StreamFrame := fun _ => []
  /-- The identifiers drawn so far. -/
  issued : List SubscriberId := []

namespace HubWorld

/-- The next frame of the core. -/
def nextFrame (w : HubWorld) (emittedAtMs : ℤ) (payload : StreamPayload) : StreamFrame :=
  ⟨w.streamSequence + 1, emittedAtMs, payload⟩

/-- The frame a subscriber will still be sent. -/
def inFlight (w : HubWorld) (id : SubscriberId) : List StreamFrame :=
  match w.publishing with
  | some p => if id ∈ p.waiting then [p.frame] else []
  | none => []

end HubWorld

inductive HubAct where
  /-- The core emits its next frame. -/
  | publish (emittedAtMs : ℤ) (payload : StreamPayload)
  /-- One send of the publisher; `ok` is what the sender returns. -/
  | send (id : SubscriberId) (ok : Bool)
  /-- The publisher removes the subscribers whose senders failed and returns. -/
  | finish
  | subscribe (id : SubscriberId) (windowLabel : String) (afterSequence : ℕ)
      (send : StreamFrame → Bool)
  | unsubscribe (id : SubscriberId) (windowLabel : String)

def hubStep (bytes : StreamFrame → Option ℕ) (bufferCapacity : ℕ) (w : HubWorld) :
    HubAct → Option HubWorld
  | .publish emittedAtMs payload =>
    match w.publishing with
    | some _ => none
    | none =>
      let frame := w.nextFrame emittedAtMs payload
      match publish bytes bufferCapacity w.inner frame with
      | .error _ => some { w with streamSequence := w.streamSequence + 1 }
      | .ok (inner, waiting) => some { w with
          inner := inner
          publishing := some { frame := frame, waiting := waiting }
          streamSequence := w.streamSequence + 1
          published := w.published ++ [frame] }
  | .send id ok =>
    match w.publishing with
    | none => none
    | some p =>
      if id ∈ p.waiting then
        if ok then some { w with
          publishing := some { p with waiting := p.waiting.erase id }
          received := Function.update w.received id (w.received id ++ [p.frame]) }
        else some { w with
          publishing := some { p with
            waiting := p.waiting.erase id
            failed := p.failed ++ [id] } }
      else none
  | .finish =>
    match w.publishing with
    | none => none
    | some p =>
      if p.waiting = [] then some { w with
        inner := { w.inner with
          subscribers := p.failed.foldl (fun m id => m.erase id) w.inner.subscribers }
        publishing := none }
      else none
  | .subscribe id windowLabel afterSequence send =>
    match subscribe w.inner windowLabel afterSequence send id with
    | .error _ => some w
    | .ok (inner, delivered) => some { w with
        inner := inner
        received := Function.update w.received id delivered
        issued := id :: w.issued }
  | .unsubscribe id windowLabel =>
    some { w with inner := (unsubscribe w.inner id windowLabel).1 }

/-- Identifiers are drawn fresh and the sequence numbers stay in their 64 bits. -/
def Regular (w : HubWorld) : HubAct → Prop
  | .publish _ _ => w.streamSequence + 1 < 2 ^ 64
  | .subscribe id _ _ _ => id ∉ w.issued
  | _ => True

instance (w : HubWorld) : (act : HubAct) → Decidable (Regular w act)
  | .publish _ _ => inferInstanceAs (Decidable (_ < _))
  | .subscribe id _ _ _ => inferInstanceAs (Decidable (id ∉ w.issued))
  | .send _ _ | .finish | .unsubscribe _ _ => .isTrue True.intro

end Hub

end LlmNotch
