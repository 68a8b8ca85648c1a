import LlmNotch.FrameReader
import LlmNotch.Utf8

/-!
# The wire codec

`decodeFrame` reads the body of a frame as UTF-8 and then as JSON. A valid message is always within
the frame bound (`travels_iff_valid`), so what is decoded is encoded again, whatever the spaces and
escapes of the text it was read from.

`readFrameSync` reads a frame from a source, whose reads return the bytes in pieces, may be
interrupted or find nothing, and take time. For every such splitting it gives what `decodeFrame`
gives for the first frame of the bytes, unless the timeout elapses.
-/

namespace LlmNotch

namespace Ipc

open Json

/-! ## Bodies -/

/-- The body of a frame : UTF-8, and then JSON. -/
def parseBody (fromStr : String → Except String WireMessage) (body : List UInt8) :
    Except String WireMessage :=
  match Utf8.decode body with
  | none => .error "frame body is not valid UTF-8"
  | some text => match fromStr text with
    | .error detail => .error ("invalid JSON: " ++ detail)
    | .ok message => .ok message

def decodeFrame (fromStr : String → Except String WireMessage) (frame : List UInt8) :
    Except IpcError WireMessage :=
  decodeFrameBytes (parseBody fromStr) frame

/-! ## Sources -/

/-- What a read does. -/
inductive ReadEvent where
  | data (bytes : List UInt8)
  | wouldBlock
  | interrupted
  | failed (detail : String)
  deriving DecidableEq

/-- The reads to come, each with the time it takes, and the clock. The source ends after them. -/
structure Source where
  events : List (ℕ × ReadEvent)
  now : ℕ
  deriving DecidableEq

/-- Reads until the buffer holds `want` bytes. The clock is looked at before each read. -/
def fill (expired : ℕ → Bool) (blocked : Option IpcError) (want : ℕ) :
    List UInt8 → ℕ → List (ℕ × ReadEvent) → Except IpcError (List UInt8) × Source
  | buffer, now, [] =>
    if want ≤ buffer.length then (.ok buffer, ⟨[], now⟩)
    else if expired now then (.error .readTimeout, ⟨[], now⟩)
    else (.error .connectionClosed, ⟨[], now⟩)
  | buffer, now, (time, event) :: rest =>
    if want ≤ buffer.length then (.ok buffer, ⟨(time, event) :: rest, now⟩)
    else if expired now then (.error .readTimeout, ⟨(time, event) :: rest, now⟩)
    else match event with
      | .data bytes =>
        if bytes = [] then (.error .connectionClosed, ⟨rest, now + time⟩)
        else if bytes.length ≤ want - buffer.length then
          fill expired blocked want (buffer ++ bytes) (now + time) rest
        else (.ok (buffer ++ bytes.take (want - buffer.length)),
          ⟨(0, .data (bytes.drop (want - buffer.length))) :: rest, now + time⟩)
      | .wouldBlock => match blocked with
        | some error => (.error error, ⟨rest, now + time⟩)
        | none => fill expired blocked want buffer (now + time) rest
      | .interrupted => fill expired blocked want buffer (now + time) rest
      | .failed detail => (.error (.io detail), ⟨rest, now + time⟩)

/-- The `read_exact` of the standard library, which gives up when nothing is there. -/
def readExact (want : ℕ) (s : Source) : Except IpcError (List UInt8) × Source :=
  fill (fun _ => false) (some (.io "operation would block")) want [] s.now s.events

def readExactWithTimeout (timeout want : ℕ) (s : Source) :
    Except IpcError (List UInt8) × Source :=
  if timeout = 0 then readExact want s
  else fill (fun now => timeout < now - s.now) none want [] s.now s.events

def readFrameSync (fromStr : String → Except String WireMessage) (timeout : ℕ) (s : Source) :
    Except IpcError WireMessage × Source :=
  match readExactWithTimeout timeout 4 s with
  | (.error error, s) => (.error error, s)
  | (.ok lenBuf, s) =>
    if maxFrameBytes < lengthOf lenBuf then
      (.error (.frameRejected ("declared length " ++ (lengthOf lenBuf).repr ++ " exceeds max " ++
        maxFrameBytes.repr)), s)
    else match readExactWithTimeout timeout (lengthOf lenBuf) s with
      | (.error error, s) => (.error error, s)
      | (.ok body, s) => (decodeFrame fromStr (lenBuf ++ body), s)

def ReadEvent.bytes : ReadEvent → List UInt8
  | .data bytes => bytes
  | _ => []

/-- The read brings some bytes, or is interrupted, or, for a reader that waits, finds nothing. -/
def ReadEvent.Open (waits : Bool) : ReadEvent → Prop
  | .data bytes => bytes ≠ []
  | .wouldBlock => waits = true
  | .interrupted => True
  | .failed _ => False

/-- The bytes to come. -/
def bytesOf (events : List (ℕ × ReadEvent)) : List UInt8 :=
  events.flatMap fun e => e.2.bytes

/-- The time of all reads. -/
def pauseOf (events : List (ℕ × ReadEvent)) : ℕ :=
  (events.map Prod.fst).sum

/-- The first frame of a stream, as far as it is there. -/
def firstFrame (bytes : List UInt8) : List UInt8 :=
  bytes.take (4 + lengthOf (bytes.take 4))

/-- The stream holds its first frame, or a length that is too large. -/
def HasFrame (bytes : List UInt8) : Prop :=
  4 ≤ bytes.length ∧ (maxFrameBytes < lengthOf (bytes.take 4) ∨
    4 + lengthOf (bytes.take 4) ≤ bytes.length)

/-! ## Reads -/

section Reads

variable {expired : ℕ → Bool} {blocked : Option IpcError} {waits : Bool} {want now : ℕ}
  {buffer : List UInt8}

@[simp] theorem bytesOf_nil : bytesOf [] = [] := rfl

@[simp] theorem bytesOf_cons (e : ℕ × ReadEvent) (rest : List (ℕ × ReadEvent)) :
    bytesOf (e :: rest) = e.2.bytes ++ bytesOf rest :=
  List.flatMap_cons

@[simp] theorem pauseOf_cons (e : ℕ × ReadEvent) (rest : List (ℕ × ReadEvent)) :
    pauseOf (e :: rest) = e.1 + pauseOf rest :=
  List.sum_cons

/-- The reads took the first bytes and left the rest. -/
structure Filled (waits : Bool) (want : ℕ) (bytes : List UInt8) (pause : ℕ)
    (outcome : Except IpcError (List UInt8) × Source) : Prop where
  result : outcome.1 = .ok (bytes.take want)
  rest : bytesOf outcome.2.events = bytes.drop want
  pause : pauseOf outcome.2.events ≤ pause
  isOpen : ∀ e ∈ outcome.2.events, e.2.Open waits

theorem Filled.later {bytes : List UInt8} {pause : ℕ}
    {outcome : Except IpcError (List UInt8) × Source} (h : Filled waits want bytes pause outcome)
    (time : ℕ) : Filled waits want bytes (time + pause) outcome :=
  ⟨h.result, h.rest, h.pause.trans (Nat.le_add_left pause time), h.isOpen⟩

theorem fill_full (h : want ≤ buffer.length) (events : List (ℕ × ReadEvent)) :
    fill expired blocked want buffer now events = (.ok buffer, ⟨events, now⟩) := by
  cases events with
  | nil => rw [fill, if_pos h]
  | cons e rest =>
    obtain ⟨time, event⟩ := e
    rw [fill.eq_def]
    exact if_pos h

theorem filled_full (h : want = buffer.length) {events : List (ℕ × ReadEvent)}
    (hopen : ∀ e ∈ events, e.2.Open waits) :
    Filled waits want (buffer ++ bytesOf events) (pauseOf events)
      (fill expired blocked want buffer now events) := by
  rw [fill_full h.le]
  subst h
  exact ⟨by rw [List.take_left], by rw [List.drop_left], le_rfl, hopen⟩

/-- The reads of an open source that holds enough end with the timeout, or with the first bytes. -/
theorem fill_spec (expired : ℕ → Bool) (blocked : Option IpcError) (buffer : List UInt8) (now : ℕ)
    (events : List (ℕ × ReadEvent)) (hblocked : waits = true → blocked = none)
    (hopen : ∀ e ∈ events, e.2.Open waits) (hbuffer : buffer.length ≤ want)
    (hwant : want ≤ (buffer ++ bytesOf events).length) :
    ((fill expired blocked want buffer now events).1 = .error .readTimeout ∧
      ∃ time, expired time = true ∧ time ≤ now + pauseOf events) ∨
    Filled waits want (buffer ++ bytesOf events) (pauseOf events)
      (fill expired blocked want buffer now events) := by
  induction events generalizing buffer now with
  | nil =>
    refine .inr (filled_full ?_ hopen)
    rw [bytesOf_nil, List.append_nil] at hwant
    exact hwant.antisymm hbuffer
  | cons e rest ih =>
    by_cases hfull : want = buffer.length
    · exact .inr (filled_full hfull hopen)
    obtain ⟨time, event⟩ := e
    obtain ⟨hevent, hrest⟩ := List.forall_mem_cons.1 hopen
    have hpart : ¬ want ≤ buffer.length := by
      omega
    by_cases hexpired : expired now = true
    · have hfill : fill expired blocked want buffer now ((time, event) :: rest) =
          (.error .readTimeout, ⟨(time, event) :: rest, now⟩) := by
        rw [fill.eq_def]
        exact (if_neg hpart).trans (if_pos hexpired)
      rw [hfill]
      exact .inl ⟨rfl, now, hexpired, Nat.le_add_right now _⟩
    rw [bytesOf_cons] at hwant
    cases event with
    | data bytes =>
      rw [fill, if_neg hpart, if_neg hexpired, if_neg hevent, bytesOf_cons, pauseOf_cons,
        ← Nat.add_assoc, ← List.append_assoc]
      by_cases hfits : bytes.length ≤ want - buffer.length
      · rw [if_pos hfits]
        refine (ih (buffer ++ bytes) (now + time) hrest ?_ ?_).imp_right fun h => h.later time
        · rw [List.length_append]
          omega
        · rwa [List.append_assoc]
      · -- the buffer is full, and the other bytes are left for the next read
        rw [if_neg hfits]
        obtain ⟨n, rfl⟩ := Nat.exists_eq_add_of_le hbuffer
        rw [Nat.add_sub_cancel_left] at hfits ⊢
        have hshort : n ≤ bytes.length := (not_le.1 hfits).le
        refine .inr ⟨congrArg Except.ok ?_, ?_, ?_, ?_⟩
        · rw [List.append_assoc, List.take_length_add_append]
          exact congrArg (buffer ++ ·) (List.take_append_of_le_length hshort).symm
        · rw [List.append_assoc, List.drop_length_add_append, bytesOf_cons]
          exact (List.drop_append_of_le_length hshort).symm
        · rw [pauseOf_cons, Nat.zero_add]
          exact Nat.le_add_left _ time
        · refine List.forall_mem_cons.2 ⟨?_, hrest⟩
          exact fun hnil => hfits (List.drop_eq_nil_iff.1 hnil)
    | wouldBlock =>
      obtain rfl := hblocked hevent
      rw [fill, if_neg hpart, if_neg hexpired, bytesOf_cons, pauseOf_cons, ← Nat.add_assoc]
      exact (ih buffer (now + time) hrest hbuffer hwant).imp_right fun h => h.later time
    | interrupted =>
      rw [fill, if_neg hpart, if_neg hexpired, bytesOf_cons, pauseOf_cons, ← Nat.add_assoc]
      exact (ih buffer (now + time) hrest hbuffer hwant).imp_right fun h => h.later time
    | failed detail => exact hevent.elim

theorem readExactWithTimeout_spec {timeout : ℕ} {s : Source}
    (hopen : ∀ e ∈ s.events, e.2.Open (timeout ≠ 0)) (hwant : want ≤ (bytesOf s.events).length) :
    ((readExactWithTimeout timeout want s).1 = .error .readTimeout ∧ 0 < timeout ∧
      timeout < pauseOf s.events) ∨
    Filled (timeout ≠ 0) want (bytesOf s.events) (pauseOf s.events)
      (readExactWithTimeout timeout want s) := by
  by_cases hzero : timeout = 0
  · have hread : readExactWithTimeout timeout want s = readExact want s := if_pos hzero
    have hblocked : decide (timeout ≠ 0) = true →
        some (IpcError.io "operation would block") = none :=
      fun hwaits => absurd hzero (of_decide_eq_true hwaits)
    rw [hread]
    rcases fill_spec (fun _ => false) _ [] s.now s.events hblocked hopen (Nat.zero_le want)
      hwant with ⟨-, time, hexpired, -⟩ | hfilled
    · cases hexpired
    · exact .inr hfilled
  · have hread : readExactWithTimeout timeout want s =
        fill (fun now => timeout < now - s.now) none want [] s.now s.events := if_neg hzero
    rw [hread]
    rcases fill_spec (fun now => timeout < now - s.now) none [] s.now s.events (fun _ => rfl) hopen
      (Nat.zero_le want) hwant with ⟨hresult, time, hexpired, htime⟩ | hfilled
    · have hlate : timeout < time - s.now := of_decide_eq_true hexpired
      exact .inl ⟨hresult, by omega, by omega⟩
    · exact .inr hfilled

/-- The length prefix decides alone when it is too large. -/
theorem decode_oversized (fromStr : String → Except String WireMessage) {frame : List UInt8}
    (hfour : 4 ≤ frame.length) (hlarge : maxFrameBytes < lengthOf (frame.take 4)) :
    decodeFrame fromStr frame = .error (.frameRejected ("declared length " ++
      (lengthOf (frame.take 4)).repr ++ " exceeds max " ++ maxFrameBytes.repr)) := by
  rw [decodeFrame, decodeFrameBytes, if_neg (not_lt.2 hfour), if_pos hlarge]

/-- For every splitting into reads, the reader gives what the first frame decodes to, or the timeout
has elapsed. -/
theorem readFrameSync_spec (fromStr : String → Except String WireMessage) {timeout : ℕ} {s : Source}
    (hopen : ∀ e ∈ s.events, e.2.Open (timeout ≠ 0)) (hframe : HasFrame (bytesOf s.events)) :
    (readFrameSync fromStr timeout s).1 = decodeFrame fromStr (firstFrame (bytesOf s.events)) ∨
    ((readFrameSync fromStr timeout s).1 = .error .readTimeout ∧ 0 < timeout ∧
      timeout < pauseOf s.events) := by
  obtain ⟨hfour, hbody⟩ := hframe
  rw [readFrameSync]
  have hprefix := readExactWithTimeout_spec hopen hfour
  generalize readExactWithTimeout timeout 4 s = outcome at hprefix ⊢
  obtain ⟨result, s'⟩ := outcome
  rcases hprefix with ⟨hresult, htime⟩ | ⟨hresult, hrest, hpause, hopen'⟩
  · obtain rfl : result = .error .readTimeout := hresult
    exact .inr ⟨rfl, htime⟩
  obtain rfl : result = .ok ((bytesOf s.events).take 4) := hresult
  dsimp only at hrest hpause hopen' ⊢
  have htake : (firstFrame (bytesOf s.events)).take 4 = (bytesOf s.events).take 4 := by
    rw [firstFrame, List.take_take, Nat.min_eq_left (Nat.le_add_right 4 _)]
  by_cases hlarge : maxFrameBytes < lengthOf ((bytesOf s.events).take 4)
  · rw [if_pos hlarge]
    left
    rw [decode_oversized fromStr ?_ (htake ▸ hlarge), htake]
    rw [firstFrame, List.length_take]
    omega
  · rw [if_neg hlarge]
    have hwhole := hbody.resolve_left hlarge
    have hlength : lengthOf ((bytesOf s.events).take 4) ≤ (bytesOf s'.events).length := by
      rw [hrest, List.length_drop]
      omega
    have hread := readExactWithTimeout_spec hopen' hlength
    generalize readExactWithTimeout timeout (lengthOf ((bytesOf s.events).take 4)) s' = outcome
      at hread ⊢
    obtain ⟨result, s''⟩ := outcome
    rcases hread with ⟨hresult, hpos, htime⟩ | ⟨hresult, -⟩
    · obtain rfl : result = .error .readTimeout := hresult
      exact .inr ⟨rfl, hpos, htime.trans_le hpause⟩
    · obtain rfl : result = .ok ((bytesOf s'.events).take
        (lengthOf ((bytesOf s.events).take 4))) := hresult
      left
      dsimp only
      rw [hrest, firstFrame, List.take_add]

end Reads

/-! ## The codec -/

section Codec

variable {fromStr : String → Except String WireMessage} {message : WireMessage}

/-- Four bytes are the length they stand for. -/
theorem lengthBytes_lengthOf {bytes : List UInt8} (h : bytes.length = 4) :
    lengthBytes (lengthOf bytes) = bytes := by
  obtain ⟨a, b, c, d, rfl⟩ : ∃ a b c d, bytes = [a, b, c, d] := by
    rcases bytes with _ | ⟨a, _ | ⟨b, _ | ⟨c, _ | ⟨d, _ | ⟨e, rest⟩⟩⟩⟩⟩
    all_goals first | exact ⟨a, b, c, d, rfl⟩ | simp at h
  have ha := a.toNat_lt
  have hb := b.toNat_lt
  have hc := c.toNat_lt
  have hd := d.toNat_lt
  simp only [lengthBytes, lengthOf, List.foldl_cons, List.foldl_nil, List.map_cons, List.map_nil,
    List.cons.injEq, and_true, ← UInt8.toNat_inj, UInt8.toNat_ofNat']
  omega

theorem parseBody_body (hserde : fromStr message.toJson.text = .ok message) :
    parseBody fromStr message.body = .ok message := by
  have hdecode : Utf8.decode message.body = some message.toJson.text := Utf8.decode_encode _
  simp only [parseBody, hdecode, hserde]

/-- A valid message comes back. -/
theorem decode_encode (hserde : fromStr message.toJson.text = .ok message)
    (hvalid : validateWireMessage message = .ok ()) :
    (encodeMessage message).bind (decodeFrame fromStr) = .ok message := by
  have htravels := travels_iff_valid.2 hvalid
  rw [encode_of_travels htravels]
  exact decode_frameOf htravels (parseBody_body hserde)

/-- What is decoded is a length, that many bytes of UTF-8, and a valid message. -/
theorem of_decode {bytes : List UInt8} (h : decodeFrame fromStr bytes = .ok message) :
    (∃ text, bytes = lengthBytes (size text) ++ Utf8.encode text ∧ size text ≤ maxFrameBytes ∧
      fromStr text = .ok message) ∧
    validateWireMessage message = .ok () := by
  simp only [decodeFrame, decodeFrameBytes] at h
  split_ifs at h with hfour hlarge hlength
  cases hparse : parseBody fromStr (bytes.drop 4) with
  | error detail =>
    rw [hparse] at h
    cases h
  | ok found =>
    rw [hparse] at h
    dsimp only at h
    cases hvalid : validateWireMessage found with
    | error error =>
      rw [hvalid] at h
      cases h
    | ok u =>
      rw [hvalid] at h
      obtain rfl : found = message := Except.ok.inj h
      refine ⟨?_, hvalid⟩
      cases hdecode : Utf8.decode (bytes.drop 4) with
      | none =>
        rw [parseBody, hdecode] at hparse
        cases hparse
      | some text =>
        have htext := Utf8.encode_of_decode hdecode
        have hread : fromStr text = .ok found := by
          simp only [parseBody, hdecode] at hparse
          cases hfrom : fromStr text with
          | error detail =>
            rw [hfrom] at hparse
            cases hparse
          | ok other =>
            rw [hfrom] at hparse
            exact hparse
        have hsize : size text = lengthOf (bytes.take 4) := by
          have hcount : (Utf8.encode text).length = size text := Array.length_toList
          have hdropped := congrArg List.length htext
          rw [hcount, List.length_drop] at hdropped
          omega
        refine ⟨text, ?_, ?_, hread⟩
        · have htake : (bytes.take 4).length = 4 := by
            rw [List.length_take]
            omega
          rw [hsize, lengthBytes_lengthOf htake, htext, List.take_append_drop]
        · rw [hsize]
          exact not_lt.1 hlarge

end Codec

/-- A valid message is decoded from its frame; what is decoded came in a frame of UTF-8, is valid
and is encoded again; and reading a frame piece by piece gives what it decodes to. -/
theorem wire_round_trip {fromStr : String → Except String WireMessage} {message : WireMessage}
    (hserde : fromStr message.toJson.text = .ok message) :
    (validateWireMessage message = .ok () → size message.toJson.text ≤ maxFrameBytes →
      (encodeMessage message).bind (decodeFrame fromStr) = .ok message) ∧
    (∀ bytes, decodeFrame fromStr bytes = .ok message →
      (∃ text, bytes = lengthBytes (size text) ++ Utf8.encode text ∧
        size text ≤ maxFrameBytes) ∧
      validateWireMessage message = .ok () ∧
      (encodeMessage message).bind (decodeFrame fromStr) = .ok message) ∧
    ∀ (timeout : ℕ) (s : Source), (∀ e ∈ s.events, e.2.Open (timeout ≠ 0)) →
      HasFrame (bytesOf s.events) →
      (readFrameSync fromStr timeout s).1 = decodeFrame fromStr (firstFrame (bytesOf s.events)) ∨
      ((readFrameSync fromStr timeout s).1 = .error .readTimeout ∧ 0 < timeout ∧
        timeout < pauseOf s.events) := by
  refine ⟨fun hvalid _ => decode_encode hserde hvalid, fun bytes hdecode => ?_,
    fun timeout s hopen hframe => readFrameSync_spec fromStr hopen hframe⟩
  obtain ⟨⟨text, hbytes, hsize, -⟩, hvalid⟩ := of_decode hdecode
  exact ⟨⟨text, hbytes, hsize⟩, hvalid, decode_encode hserde hvalid⟩

/-- A reader of the first acknowledgement. -/
def ackFromStr (text : String) : Except String WireMessage :=
  if text = firstAck.toJson.text then .ok firstAck else .error "expected value at line 1 column 1"

/-- Two acknowledgements in pieces that end inside a prefix and inside a body. -/
def ackSource : Source :=
  ⟨[(1, .data ((stream [firstAck, secondAck]).take 3)), (2, .wouldBlock), (0, .interrupted),
    (5, .data (((stream [firstAck, secondAck]).drop 3).take 20)),
    (1, .data ((stream [firstAck, secondAck]).drop 23))], 7⟩

theorem wire_round_trip_ack :
    (encodeMessage firstAck).bind (decodeFrame ackFromStr) = .ok firstAck ∧
    (readFrameSync ackFromStr 100 ackSource).1 =
      decodeFrame ackFromStr (firstFrame (bytesOf ackSource.events)) := by
  have hserde : ackFromStr firstAck.toJson.text = .ok firstAck := if_pos rfl
  have hvalid : validateWireMessage firstAck = .ok () ∧
      size firstAck.toJson.text ≤ maxFrameBytes := by
    decide
  have hopen : ∀ e ∈ ackSource.events, e.2.Open (100 ≠ 0) := by
    simp only [ackSource, List.forall_mem_cons, List.not_mem_nil, false_implies, implies_true,
      and_true, ReadEvent.Open]
    decide
  have hframe : HasFrame (bytesOf ackSource.events) := by
    unfold HasFrame
    decide
  obtain ⟨hback, -, hread⟩ := wire_round_trip hserde
  refine ⟨hback hvalid.1 hvalid.2, (hread 100 ackSource hopen hframe).resolve_right ?_⟩
  rintro ⟨-, -, hlate⟩
  revert hlate
  decide

end Ipc

end LlmNotch
