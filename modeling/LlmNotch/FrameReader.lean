import LlmNotch.Transition
import LlmNotch.Wire

/-!
# Reading frames

The connection loop of the ingest server. A frame is read in two parts, the length prefix and
the body; every read takes some of the bytes that have arrived. If the read timeout elapses
the attempt is dropped with the bytes it holds, and the loop starts to read a new frame.

`InSync` says that the messages processed are the first ones sent and that the current attempt
began at the start of the next frame. `frames_in_sync` keeps it in every run in which the
timeout elapses only between frames.
-/

namespace LlmNotch

namespace Ipc

open Json

def readTimeoutMs : ℕ := 2000

/-! ## Frames -/

/-- The number of a length prefix. -/
def lengthOf (bytes : List UInt8) : ℕ :=
  bytes.foldl (fun n b => 256 * n + b.toNat) 0

/-- The message of a frame. `parse` reads the text of a body. -/
def decodeFrameBytes (parse : List UInt8 → Except String WireMessage) (frame : List UInt8) :
    Except IpcError WireMessage :=
  if frame.length < 4 then .error (.frameRejected "frame shorter than length prefix")
  else if maxFrameBytes < lengthOf (frame.take 4) then
    .error (.frameRejected ("declared length " ++ (lengthOf (frame.take 4)).repr ++
      " exceeds max " ++ maxFrameBytes.repr))
  else if frame.length ≠ 4 + lengthOf (frame.take 4) then
    .error (.frameRejected ("frame size " ++ frame.length.repr ++ " != declared " ++
      (4 + lengthOf (frame.take 4)).repr))
  else match parse (frame.drop 4) with
    | .error detail => .error (.frameRejected detail)
    | .ok message => do
      validateWireMessage message
      return message

/-- The frame of a message. -/
def frameOf (message : WireMessage) : List UInt8 :=
  lengthBytes message.body.length ++ message.body

variable {message : WireMessage}

theorem encode_of_travels (h : Travels message) :
    encodeMessage message = .ok (frameOf message) := by
  obtain ⟨hvalid, hsize⟩ := travels_iff.1 h
  simp only [encodeMessage, hvalid, require, hsize, decide_true, if_true]
  rfl

/-- What a client that sends these messages writes. -/
def stream (messages : List WireMessage) : List UInt8 :=
  messages.flatMap frameOf

/-! ## The connection -/

/-- A connection : the bytes still on their way, those that arrived, those the current attempt
holds, and the messages processed so far. -/
structure Conn where
  incoming : List UInt8
  arrived : List UInt8
  held : List UInt8
  processed : List WireMessage
  closed : Bool

/-- What happens to a connection. -/
inductive ConnAct where
  | arrive (n : ℕ)
  | read (n : ℕ)
  | timeout
  | close
  deriving DecidableEq

/-- How many bytes the pending read asks for : the rest of the prefix, or of the body. -/
def wanted (held : List UInt8) : ℕ :=
  if held.length < 4 then 4 - held.length else 4 + lengthOf (held.take 4) - held.length

/-- The attempt holds these bytes after a read. -/
def Conn.hold (parse : List UInt8 → Except String WireMessage) (c : Conn) (held : List UInt8) :
    Conn :=
  if held.length < 4 then { c with held := held }
  else if maxFrameBytes < lengthOf (held.take 4) then { c with held := held, closed := true }
  else if held.length < 4 + lengthOf (held.take 4) then { c with held := held }
  else match decodeFrameBytes parse held with
    | .ok message => { c with held := [], processed := c.processed ++ [message] }
    | .error _ => { c with held := held, closed := true }

def connStep (parse : List UInt8 → Except String WireMessage) (c : Conn) : ConnAct → Option Conn
  | .arrive n =>
    if n ≤ c.incoming.length then
      some { c with incoming := c.incoming.drop n, arrived := c.arrived ++ c.incoming.take n }
    else none
  | .read n =>
    if c.closed = false ∧ 0 < n ∧ n ≤ wanted c.held ∧ n ≤ c.arrived.length then
      some (Conn.hold parse { c with arrived := c.arrived.drop n } (c.held ++ c.arrived.take n))
    else none
  | .timeout => if c.closed = false then some { c with held := [] } else none
  | .close => some { c with closed := true }

/-- A connection whose client is about to send the messages. -/
def Conn.start (messages : List WireMessage) : Conn :=
  ⟨stream messages, [], [], [], false⟩

/-- The messages processed are the first ones sent, and the current attempt began at the frame
of the next one. -/
def InSync (messages : List WireMessage) (c : Conn) : Prop :=
  ∃ rest, messages = c.processed ++ rest ∧ c.held ++ c.arrived ++ c.incoming = stream rest

/-- The timeout does not elapse inside a frame. -/
def BetweenFrames (c : Conn) (a : ConnAct) : Prop :=
  a = .timeout → c.held = []

/-! ## Prefixes -/

theorem lengthOf_lengthBytes {n : ℕ} (h : n < 2 ^ 32) : lengthOf (lengthBytes n) = n := by
  simp only [lengthOf, lengthBytes, List.map_cons, List.map_nil, List.foldl_cons, List.foldl_nil,
    UInt8.toNat_ofNat']
  omega

theorem length_lengthBytes (n : ℕ) : (lengthBytes n).length = 4 := rfl

theorem take_frameOf (message : WireMessage) :
    (frameOf message).take 4 = lengthBytes message.body.length := by
  rw [frameOf, List.take_append_of_le_length (by rw [length_lengthBytes]),
    List.take_of_length_le (by rw [length_lengthBytes])]

theorem drop_frameOf (message : WireMessage) : (frameOf message).drop 4 = message.body := by
  rw [frameOf, List.drop_append_of_le_length (by rw [length_lengthBytes])]
  rfl

theorem length_frameOf (message : WireMessage) :
    (frameOf message).length = 4 + message.body.length := by
  rw [frameOf, List.length_append, length_lengthBytes]

theorem frameOf_pos (message : WireMessage) : 0 < (frameOf message).length := by
  rw [length_frameOf]
  omega

/-- The prefix of a frame is the length of its body. -/
theorem lengthOf_frameOf (h : Travels message) :
    lengthOf ((frameOf message).take 4) = message.body.length ∧
      message.body.length ≤ maxFrameBytes := by
  have hsize : message.body.length ≤ maxFrameBytes := by
    rw [length_body]
    exact (travels_iff.1 h).2
  refine ⟨?_, hsize⟩
  rw [take_frameOf, lengthOf_lengthBytes]
  simp only [maxFrameBytes] at hsize
  omega

theorem decode_frameOf {parse : List UInt8 → Except String WireMessage} (h : Travels message)
    (hparse : parse message.body = .ok message) :
    decodeFrameBytes parse (frameOf message) = .ok message := by
  obtain ⟨hlength, hmax⟩ := lengthOf_frameOf h
  have hvalid := (travels_iff.1 h).1
  have hfour : ¬ (frameOf message).length < 4 := by
    rw [length_frameOf]
    omega
  have hbound : ¬ maxFrameBytes < lengthOf ((frameOf message).take 4) := by
    rw [hlength]
    omega
  have hdeclared : ¬ (frameOf message).length ≠ 4 + lengthOf ((frameOf message).take 4) := by
    rw [length_frameOf, hlength]
    omega
  rw [decodeFrameBytes, if_neg hfour, if_neg hbound, if_neg hdeclared, drop_frameOf, hparse]
  simp only [hvalid]
  rfl

/-! ## The invariant -/

section Sync

variable {parse : List UInt8 → Except String WireMessage} {messages : List WireMessage}

/-- The attempt holds less than the frame it began at. -/
def Sync (messages : List WireMessage) (c : Conn) : Prop :=
  ∃ rest, messages = c.processed ++ rest ∧ c.held ++ c.arrived ++ c.incoming = stream rest ∧
    ∀ m tail, rest = m :: tail → c.held.length < (frameOf m).length

theorem Sync.inSync {c : Conn} (h : Sync messages c) : InSync messages c := by
  obtain ⟨rest, hsplit, hbytes, -⟩ := h
  exact ⟨rest, hsplit, hbytes⟩

theorem sync_start : Sync messages (Conn.start messages) :=
  ⟨messages, rfl, rfl, fun m _ _ => frameOf_pos m⟩

variable {m : WireMessage} {held : List UInt8}

/-- A part of a stream no longer than its first frame is a part of that frame. -/
theorem eq_take_frameOf {tail : List WireMessage} {later : List UInt8}
    (h : held ++ later = stream (m :: tail)) (hlength : held.length ≤ (frameOf m).length) :
    held = (frameOf m).take held.length := by
  have hstream : stream (m :: tail) = frameOf m ++ stream tail := by
    rw [stream, List.flatMap_cons, stream]
  rw [hstream] at h
  have htake := congrArg (List.take held.length) h
  rwa [List.take_append_of_le_length le_rfl, List.take_length,
    List.take_append_of_le_length hlength] at htake

/-- The pending read does not ask for more than the frame. -/
theorem wanted_le (hm : Travels m) (hheld : held = (frameOf m).take held.length)
    (hlength : held.length < (frameOf m).length) :
    held.length + wanted held ≤ (frameOf m).length := by
  have hframe := length_frameOf m
  unfold wanted
  split
  · omega
  · rename_i hfour
    have hhead : held.take 4 = (frameOf m).take 4 := by
      rw [hheld, List.take_take, Nat.min_eq_left (by omega)]
    rw [hhead, (lengthOf_frameOf hm).1]
    omega

/-- A read inside a frame, and the one that completes it. -/
theorem hold_frame {c : Conn} (hm : Travels m) (hparse : parse m.body = .ok m)
    (hheld : held = (frameOf m).take held.length) (hlength : held.length ≤ (frameOf m).length) :
    (held.length < (frameOf m).length ∧ c.hold parse held = { c with held := held }) ∨
      held = frameOf m ∧
        c.hold parse held = { c with held := [], processed := c.processed ++ [m] } := by
  have hframe := length_frameOf m
  unfold Conn.hold
  by_cases hfour : held.length < 4
  · exact .inl ⟨by omega, if_pos hfour⟩
  have hhead : held.take 4 = (frameOf m).take 4 := by
    rw [hheld, List.take_take, Nat.min_eq_left (by omega)]
  obtain ⟨hdeclared, hmax⟩ := lengthOf_frameOf hm
  rw [if_neg hfour, hhead, hdeclared, if_neg (by omega)]
  by_cases hpart : held.length < 4 + m.body.length
  · exact .inl ⟨by omega, if_pos hpart⟩
  · have hwhole : held = frameOf m := by
      rw [hheld, List.take_of_length_le (by omega)]
    rw [if_neg hpart, hwhole, decode_frameOf hm hparse]
    exact .inr ⟨rfl, rfl⟩

theorem sync_read {c : Conn} {n : ℕ} (hms : ∀ m ∈ messages, Travels m)
    (hparse : ∀ m ∈ messages, parse m.body = .ok m) (h : Sync messages c) (hn : 0 < n)
    (hwanted : n ≤ wanted c.held) (harrived : n ≤ c.arrived.length) :
    Sync messages (Conn.hold parse { c with arrived := c.arrived.drop n }
      (c.held ++ c.arrived.take n)) := by
  obtain ⟨rest, hsplit, hbytes, hfits⟩ := h
  cases rest with
  | nil =>
    have hlength := congrArg List.length hbytes
    simp only [stream, List.flatMap_nil, List.length_append, List.length_nil] at hlength
    omega
  | cons m tail =>
    have hmem : m ∈ messages := by
      rw [hsplit]
      simp
    have hpart := hfits m tail rfl
    have hsame : c.held = (frameOf m).take c.held.length :=
      eq_take_frameOf ((List.append_assoc ..).symm.trans hbytes) hpart.le
    have hlimit := wanted_le (hms m hmem) hsame hpart
    have hnew : (c.held ++ c.arrived.take n).length ≤ (frameOf m).length := by
      rw [List.length_append, List.length_take, Nat.min_eq_left harrived]
      omega
    have hrest : c.held ++ c.arrived.take n ++ (c.arrived.drop n ++ c.incoming) =
        stream (m :: tail) := by
      rw [← hbytes]
      rw [List.append_assoc, ← List.append_assoc (c.arrived.take n), List.take_append_drop,
        List.append_assoc]
    have hheld := eq_take_frameOf hrest hnew
    rcases hold_frame (c := { c with arrived := c.arrived.drop n }) (hms m hmem)
      (hparse m hmem) hheld hnew with ⟨hless, hstate⟩ | ⟨hwhole, hstate⟩
    · rw [hstate]
      refine ⟨m :: tail, hsplit, ?_, fun m' tail' heq => ?_⟩
      · rw [← hrest]
        simp only [List.append_assoc]
      · obtain ⟨rfl, -⟩ := List.cons.inj heq
        exact hless
    · rw [hstate]
      refine ⟨tail, ?_, ?_, fun m' tail' _ => frameOf_pos m'⟩
      · rw [hsplit]
        simp
      · rw [hwhole, stream, List.flatMap_cons] at hrest
        exact List.append_cancel_left hrest

theorem sync_step (hms : ∀ m ∈ messages, Travels m)
    (hparse : ∀ m ∈ messages, parse m.body = .ok m) (c : Conn) (a : ConnAct) (d : Conn)
    (hok : BetweenFrames c a) (h : Sync messages c) (hstep : connStep parse c a = some d) :
    Sync messages d := by
  cases a with
  | arrive n =>
    simp only [connStep] at hstep
    split at hstep
    · cases hstep
      obtain ⟨rest, hsplit, hbytes, hfits⟩ := h
      refine ⟨rest, hsplit, ?_, hfits⟩
      rw [← hbytes]
      simp only [List.append_assoc, List.take_append_drop]
    · cases hstep
  | read n =>
    simp only [connStep] at hstep
    split at hstep
    · rename_i hread
      cases hstep
      exact sync_read hms hparse h hread.2.1 hread.2.2.1 hread.2.2.2
    · cases hstep
  | timeout =>
    simp only [connStep] at hstep
    split at hstep
    · cases hstep
      obtain ⟨rest, hsplit, hbytes, hfits⟩ := h
      have hempty := hok rfl
      rw [hempty] at hbytes hfits
      exact ⟨rest, hsplit, hbytes, hfits⟩
    · cases hstep
  | close =>
    cases hstep
    exact h

end Sync

/-- If the timeout elapses only between frames, the loop stays at the frames of the client. -/
theorem frames_in_sync {parse : List UInt8 → Except String WireMessage}
    {messages : List WireMessage} {as : List ConnAct} {c : Conn}
    (hms : ∀ m ∈ messages, Travels m) (hparse : ∀ m ∈ messages, parse m.body = .ok m)
    (hg : Guarded (connStep parse) BetweenFrames (Conn.start messages) as)
    (hrun : run (connStep parse) (Conn.start messages) as = some c) :
    c.processed <+: messages ∧ InSync messages c := by
  have hsync : Sync messages c := hg.invariant (sync_step hms hparse) sync_start hrun
  have hhead : c.processed <+: messages := by
    obtain ⟨rest, hsplit, -⟩ := hsync
    exact ⟨rest, hsplit.symm⟩
  exact ⟨hhead, hsync.inSync⟩

/-! ## Two acknowledgements -/

def firstAck : WireMessage := .ack ipcWireVersion "a"
def secondAck : WireMessage := .ack ipcWireVersion "b"

/-- A reader of the two messages. -/
def parseAcks (body : List UInt8) : Except String WireMessage :=
  if body = firstAck.body then .ok firstAck
  else if body = secondAck.body then .ok secondAck
  else .error "invalid JSON"

/-- Both frames arrive in pieces, with a pause between them. -/
def pausedBetween : List ConnAct :=
  [.arrive 20, .read 4, .read 16, .arrive 20, .read 20, .timeout, .arrive 40, .read 4, .read 36]

/-- A pause after the first byte of a frame, and one after the rest of it. -/
def pausedInside : List ConnAct :=
  [.arrive 1, .read 1, .timeout, .arrive 39, .read 4, .read 35, .timeout, .arrive 40, .read 4,
    .read 36]

theorem acks_travel : ∀ m ∈ [firstAck, secondAck], Travels m := by
  have hfirst : Travels firstAck := encode_ack_iff.2 (by decide)
  have hsecond : Travels secondAck := encode_ack_iff.2 (by decide)
  simp [hfirst, hsecond]

theorem parse_acks : ∀ m ∈ [firstAck, secondAck], parseAcks m.body = .ok m := by
  have hne : secondAck.body ≠ firstAck.body := by decide
  simp [parseAcks, hne]

/-- Pauses between frames do no harm. -/
theorem frames_in_sync_pausedBetween : ∃ c,
    run (connStep parseAcks) (Conn.start [firstAck, secondAck]) pausedBetween = some c ∧
      c.processed <+: [firstAck, secondAck] ∧ InSync [firstAck, secondAck] c := by
  have hsome : (run (connStep parseAcks) (Conn.start [firstAck, secondAck])
      pausedBetween).isSome = true := by
    decide
  obtain ⟨c, hc⟩ := Option.isSome_iff_exists.1 hsome
  have hg : Guarded (connStep parseAcks) BetweenFrames (Conn.start [firstAck, secondAck])
      pausedBetween := by
    refine Guarded.of_sound (fun c a => decide (a = .timeout → c.held = []))
      (fun c a h => show a = .timeout → c.held = [] from of_decide_eq_true h) ?_
    decide
  exact ⟨c, hc, frames_in_sync acks_travel parse_acks hg hc⟩

/-- After a pause inside the first frame the loop processes the second one alone. -/
theorem paused_inside_loses : ∃ c, (∀ m ∈ [firstAck, secondAck], Travels m) ∧
    (∀ m ∈ [firstAck, secondAck], parseAcks m.body = .ok m) ∧
    run (connStep parseAcks) (Conn.start [firstAck, secondAck]) pausedInside = some c ∧
      ¬ c.processed <+: [firstAck, secondAck] := by
  have hprocessed : (run (connStep parseAcks) (Conn.start [firstAck, secondAck])
      pausedInside).map Conn.processed = some [secondAck] := by
    decide
  obtain ⟨c, hc, hlost⟩ := Option.map_eq_some_iff.1 hprocessed
  refine ⟨c, acks_travel, parse_acks, hc, ?_⟩
  rw [hlost]
  decide

end Ipc

end LlmNotch
