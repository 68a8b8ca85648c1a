import LlmNotch.BoundedLines
import LlmNotch.RelayLoop

/-!
# Lines from the relay to the host

The relay writes a frame as one line of JSON (`RelayFrame.line`). The host reads a line from a
buffered reader, which gives the bytes in chunks of any size (`readBoundedLine`), and then the
frame (`readJsonLine`). The bound of the reader counts the end of the line, the bound of a frame
does not.

`emission_accepted` : the event of every payload that is forwarded is written as one line, and the
host reads the same frame from it, however the bytes arrive and whatever follows.
-/

namespace LlmNotch

/-! ## Text without line breaks -/

namespace Json

/-- The text has no line break. -/
def OneLine (s : String) : Prop :=
  '\n' ∉ s.toList

instance (s : String) : Decidable (OneLine s) :=
  inferInstanceAs (Decidable ('\n' ∉ s.toList))

theorem OneLine.append {s t : String} (hs : OneLine s) (ht : OneLine t) : OneLine (s ++ t) := by
  unfold OneLine at *
  rw [String.toList_append, List.mem_append, not_or]
  exact ⟨hs, ht⟩

theorem hexDigit_ne_break : ∀ n < 16, hexDigit n ≠ '\n' := by
  decide

theorem break_notMem_escapeChar (c : Char) : '\n' ∉ escapeChar c := by
  unfold escapeChar
  split_ifs with _ _ hbreak _ _ _ _ hcontrol
  all_goals first | decide | skip
  · have hhigh := hexDigit_ne_break (c.toNat / 16) (by omega)
    have hlow := hexDigit_ne_break (c.toNat % 16) (by omega)
    simp [hhigh.symm, hlow.symm]
  · simpa using Ne.symm hbreak

theorem oneLine_quote (s : String) : OneLine (quote s) := by
  have hchars : OneLine (String.ofList (s.toList.flatMap escapeChar)) := by
    unfold OneLine
    rw [String.toList_ofList, List.mem_flatMap]
    rintro ⟨c, -, hc⟩
    exact break_notMem_escapeChar c hc
  have hquote : OneLine "\"" := by decide
  exact (hquote.append hchars).append hquote

theorem oneLine_repr (n : ℕ) : OneLine n.repr := by
  unfold OneLine
  rw [Nat.repr_eq_ofList_toDigits, String.toList_ofList]
  intro hmem
  have hdigit : '\n'.isDigit = true := Nat.isDigit_of_mem_toDigits (by decide) (by decide) hmem
  cases hdigit

theorem oneLine_intText (n : ℤ) : OneLine (intText n) := by
  unfold intText
  split_ifs
  · exact OneLine.append (by decide) (oneLine_repr _)
  · exact oneLine_repr _

theorem oneLine_textFields (fields : List (String × Json))
    (h : ∀ field ∈ fields, OneLine field.2.text) : OneLine (textFields fields) := by
  induction fields with
  | nil =>
    unfold textFields
    decide
  | cons field rest ih =>
    have hfield := ((oneLine_quote field.1).append (t := ":") (by decide)).append
      (h field List.mem_cons_self)
    cases rest with
    | nil =>
      unfold textFields
      exact hfield
    | cons next rest =>
      unfold textFields
      exact (hfield.append (t := ",") (by decide)).append
        (ih fun other hother => h other (List.mem_cons_of_mem field hother))

/-- An object has one line if its values have. -/
theorem oneLine_obj {fields : List (String × Json)} (h : ∀ field ∈ fields, OneLine field.2.text) :
    OneLine (obj fields).text := by
  rw [text]
  exact (OneLine.append (by decide) (oneLine_textFields fields h)).append (by decide)

end Json

namespace Utf8

/-- The byte of a line break stands for nothing else. -/
theorem break_notMem_encodeChar {c : Char} (h : c ≠ '\n') : 10 ∉ String.utf8EncodeChar c := by
  have hval : c.val.toNat ≠ 10 := fun hten => h (Char.ext (UInt32.toNat_inj.1 hten))
  have hbyte : ∀ n, n < 256 → n ≠ 10 → (10 : UInt8) ≠ UInt8.ofNat n := by
    intro n hn hne heq
    have hnat : 10 = n % 256 := by simpa using congrArg UInt8.toNat heq
    omega
  unfold String.utf8EncodeChar
  dsimp only
  split_ifs with hone htwo hthree
  · simpa using hbyte c.val.toNat (by omega) hval
  · simp only [List.mem_cons, List.not_mem_nil, or_false, not_or]
    exact ⟨hbyte _ (by omega) (by omega), hbyte _ (by omega) (by omega)⟩
  · simp only [List.mem_cons, List.not_mem_nil, or_false, not_or]
    exact ⟨hbyte _ (by omega) (by omega), hbyte _ (by omega) (by omega),
      hbyte _ (by omega) (by omega)⟩
  · simp only [List.mem_cons, List.not_mem_nil, or_false, not_or]
    exact ⟨hbyte _ (by omega) (by omega), hbyte _ (by omega) (by omega),
      hbyte _ (by omega) (by omega), hbyte _ (by omega) (by omega)⟩

theorem break_notMem_encode {s : String} (h : Json.OneLine s) : 10 ∉ encode s := by
  rw [← String.ofList_toList (s := s), encode_ofList, List.mem_flatMap]
  rintro ⟨c, hc, hbyte⟩
  refine break_notMem_encodeChar ?_ hbyte
  rintro rfl
  exact h hc

end Utf8

namespace Relay

open Json (size)

/-! ## Reading a frame -/

/-- `fromSlice` is `serde_json::from_slice`. -/
def readJsonLine {α : Type} (fromSlice : List UInt8 → Except String α) (maxBytes : ℕ)
    (fills : Fills) : Except TransportError (Option α) × Fills :=
  match readBoundedLine maxBytes [] fills with
  | (.error error, rest) => (.error error, rest)
  | (.ok none, rest) => (.ok none, rest)
  | (.ok (some bytes), rest) => match fromSlice bytes with
    | .ok value => (.ok (some value), rest)
    | .error error => (.error (.protocol ("invalid relay JSON: " ++ error)), rest)

/-! ## The lines of the relay -/

/-- `write_json_line`. -/
def RelayFrame.line (frame : RelayFrame) : List UInt8 :=
  Utf8.encode frame.toJson.text ++ [10]

theorem oneLine_optionalField {key : String} {value : Option String} {field : String × Json}
    (h : field ∈ optionalField key value) : Json.OneLine field.2.text := by
  obtain ⟨text, -, rfl⟩ := Option.map_eq_some_iff.1 (Option.mem_toList.1 h)
  rw [Json.text]
  exact Json.oneLine_quote text

theorem oneLine_payload (payload : RelayPayload) : Json.OneLine payload.toJson.text := by
  have hstr : ∀ s, Json.OneLine (Json.str s).text := fun s => by
    rw [Json.text]
    exact Json.oneLine_quote s
  cases payload with
  | sessionEvent sessionId source summary occurredAtMs kind toolName attention =>
    refine Json.oneLine_obj fun field hfield => ?_
    simp only [List.mem_append, List.mem_cons, List.not_mem_nil, or_false] at hfield
    rcases hfield with (((rfl | rfl | rfl | rfl | rfl) | hfield) | hfield) | hfield
    · exact hstr _
    · exact hstr _
    · exact hstr _
    · exact hstr _
    · rw [Json.text]
      exact Json.oneLine_intText _
    · exact oneLine_optionalField hfield
    · exact oneLine_optionalField hfield
    · exact oneLine_optionalField hfield
  | checkpoint | heartbeat => exact Json.oneLine_obj (by simpa using hstr _)
  | error code => exact Json.oneLine_obj (by simpa using ⟨hstr _, hstr _⟩)

theorem oneLine_frame (frame : RelayFrame) : Json.OneLine frame.toJson.text := by
  refine Json.oneLine_obj fun field hfield => ?_
  simp only [List.mem_cons, List.not_mem_nil, or_false] at hfield
  rcases hfield with rfl | rfl
  · rw [Json.text]
    exact Json.oneLine_repr _
  · exact oneLine_payload frame.payload

theorem length_text (frame : RelayFrame) :
    (Utf8.encode frame.toJson.text).length = frame.encodedLen := by
  rw [Utf8.encode, Array.length_toList]
  rfl

/-- A line holds one line break, at its end. -/
theorem count_line (frame : RelayFrame) : frame.line.count 10 = 1 := by
  rw [RelayFrame.line, List.count_append,
    List.count_eq_zero_of_not_mem (Utf8.break_notMem_encode (oneLine_frame frame))]
  rfl

/-- The host reads the frame of a line that is within its bound. -/
theorem readJsonLine_line {fromSlice : List UInt8 → Except String RelayFrame} {frame : RelayFrame}
    {maxBytes : ℕ} (hslice : fromSlice frame.line = .ok frame)
    (hmax : frame.encodedLen + 1 ≤ maxBytes) {chunks : List (List UInt8)} {rest : List UInt8}
    (hchunks : ∀ chunk ∈ chunks, chunk ≠ []) (hflatten : chunks.flatten = frame.line ++ rest) :
    ∃ later : List (List UInt8), (∀ chunk ∈ later, chunk ≠ []) ∧ later.flatten = rest ∧
      readJsonLine fromSlice maxBytes (chunks.map .ok) = (.ok (some frame), later.map .ok) := by
  have hstream : Splits (Utf8.encode frame.toJson.text ++ 10 :: rest) chunks := by
    refine ⟨hchunks, ?_⟩
    rw [hflatten, RelayFrame.line, List.append_assoc]
    rfl
  have hreads : ReadsLine oversized maxBytes _ _ := bounded_line hstream
  have hfirst : FirstLine (Utf8.encode frame.toJson.text ++ 10 :: rest) frame.line :=
    (firstLine_iff (Utf8.break_notMem_encode (oneLine_frame frame))).2 rfl
  have hfits : frame.line.length ≤ maxBytes := by
    rw [RelayFrame.line, List.length_append, length_text]
    exact hmax
  have hread := (hreads.line _).2 ⟨hfirst, hfits⟩
  obtain ⟨left, later, hleft, hlater, hrest⟩ := hreads.left _ hread
  have hsame : left = rest := by
    rw [RelayFrame.line, List.append_assoc] at hleft
    exact (List.cons.inj (List.append_cancel_left hleft)).2.symm
  refine ⟨later, hlater.1, hlater.2.trans hsame, ?_⟩
  have hline : readBoundedLine maxBytes [] (chunks.map .ok) =
      (.ok (some frame.line), later.map .ok) := Prod.ext hread hrest
  simp only [readJsonLine, hline, hslice]

/-- The event of a payload that is forwarded is written as one line, and the host reads and accepts
the same frame, for every way the bytes arrive. -/
theorem emission_accepted (payload : RelayHookPayload)
    (hclass : classifyHookPayload payload = .forward) (now : Int64) (p : Process)
    (hsequence : p.sequence < 2 ^ 64 - 1) :
    ∃ event, normalizeHookPayload payload now = .ok (some event) ∧ event.isSessionEvent = true ∧
      (∀ origin next, p.emit event origin none next =
        { p with
          sequence := p.sequence + 1
          output := p.output ++ [⟨⟨p.sequence + 1, event⟩, origin⟩]
          main := next }) ∧
      (RelayFrame.mk (p.sequence + 1) event).line.count 10 = 1 ∧
      ∀ fromSlice : List UInt8 → Except String RelayFrame,
        fromSlice (RelayFrame.mk (p.sequence + 1) event).line = .ok ⟨p.sequence + 1, event⟩ →
        ∀ (chunks : List (List UInt8)) (rest : List UInt8), (∀ chunk ∈ chunks, chunk ≠ []) →
          chunks.flatten = (RelayFrame.mk (p.sequence + 1) event).line ++ rest →
          ∃ later : List (List UInt8), later.flatten = rest ∧
            readJsonLine fromSlice maxFrameBytes (chunks.map .ok) =
              (.ok (some ⟨p.sequence + 1, event⟩), later.map .ok) ∧
            ∀ c : Connection, c.cursor ≤ p.sequence →
              c.receive (.ok (some ⟨p.sequence + 1, event⟩)) =
                (.ok (some ⟨p.sequence + 1, event⟩), { c with cursor := p.sequence + 1 }) := by
  obtain ⟨hvalid, hforwards⟩ := classify_forward.1 hclass
  obtain ⟨sessionId, source, summary, occurredAtMs, kind, toolName, attention, hnormal, hbounded⟩ :=
    forward_normalizes hvalid hforwards now
  have hnext : p.sequence + 1 < 2 ^ 64 := by omega
  have haccept : ∀ last, last ≤ p.sequence → (RelayFrame.mk (p.sequence + 1) (.sessionEvent
      sessionId source summary occurredAtMs kind toolName attention)).validateAfter last =
        .ok () := fun last hlast =>
    validateAfter_ok_iff.2 ⟨Nat.lt_succ_of_le hlast,
      hbounded.validatePayload occurredAtMs kind attention,
      hbounded.encodedLen_le occurredAtMs kind attention hnext⟩
  refine ⟨_, hnormal, rfl, fun origin next => ?_, count_line _, ?_⟩
  · exact Process.emit_ok origin hnext (haccept p.sequence le_rfl)
  · intro fromSlice hslice chunks rest hchunks hflatten
    obtain ⟨later, -, hrest, hread⟩ := readJsonLine_line hslice
      (hbounded.line_le occurredAtMs kind attention hnext) hchunks hflatten
    refine ⟨later, hrest, hread, fun c hcursor => ?_⟩
    simp only [Connection.receive, haccept c.cursor hcursor]

/-- A payload with default summary, mixed case and a session name that is escaped. -/
def toolStatus : RelayHookPayload :=
  ⟨"Claude_Code", "statusChange", none, some "a\nb", some "", none, some "make", some "Question"⟩

/-- Reads one frame. -/
def sliceOnly (frame : RelayFrame) (bytes : List UInt8) : Except String RelayFrame :=
  if bytes = frame.line then .ok frame else .error "expected value"

/-- The bytes arrive one by one, with a part of the next line. -/
theorem emission_accepted_toolStatus :
    ∃ event, normalizeHookPayload toolStatus 5 = .ok (some event) ∧
      ∃ later : List (List UInt8), later.flatten = [123, 125] ∧
        readJsonLine (sliceOnly ⟨8, event⟩) maxFrameBytes
          ((((RelayFrame.mk 8 event).line ++ [123, 125]).map fun byte => [byte]).map .ok) =
            (.ok (some ⟨8, event⟩), later.map .ok) := by
  obtain ⟨event, hnormal, -, -, -, hread⟩ :=
    emission_accepted toolStatus (by decide) 5 (.start 7) (by decide)
  have hslice : sliceOnly ⟨8, event⟩ (RelayFrame.mk 8 event).line = .ok ⟨8, event⟩ := if_pos rfl
  have hchunks : ∀ chunk ∈ ((RelayFrame.mk 8 event).line ++ [123, 125]).map fun byte => [byte],
      chunk ≠ [] := by
    intro chunk hchunk
    obtain ⟨byte, -, rfl⟩ := List.mem_map.1 hchunk
    exact List.cons_ne_nil byte []
  obtain ⟨later, hlater, hline, -⟩ := hread (sliceOnly ⟨8, event⟩) hslice
    (((RelayFrame.mk 8 event).line ++ [123, 125]).map fun byte => [byte]) [123, 125] hchunks
    (by rw [← List.flatMap_def, List.flatMap_singleton']; rfl)
  exact ⟨event, hnormal, later, hlater, hline⟩

end Relay

end LlmNotch
