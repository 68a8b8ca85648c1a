import LlmNotch.RelaySession

/-!
# Lines of bounded length

The host and the relay each have a `read_bounded_line`, which reads a line from a buffered reader
(`readBoundedLine`, `Control.readBoundedLine`). The reader gives the bytes of a stream in chunks,
and the bound is compared both before and after the line break is seen.

`ReadsLine` says what one call is for, in terms of the stream : there is a line, there is nothing,
or the call fails. `bounded_line_of_chunks` : this is what both do, however the stream is split,
and what they leave is again a split stream, so that the next call is about the next line.
-/

namespace LlmNotch

namespace Relay

/-! ## The reader of the host -/

/-- What the calls of `fill_buf` give, one after the other. -/
abbrev Fills := List (Except String (List UInt8))

def oversized : TransportError :=
  .protocol "relay emitted an oversized or unterminated frame"

/-- The rest of a buffer that was consumed in part. -/
def unread (buffer : List UInt8) (later : Fills) : Fills :=
  if buffer.isEmpty then later else .ok buffer :: later

/-- `bytes` is what the line has so far. -/
def readBoundedLine (maxBytes : ℕ) (bytes : List UInt8) :
    Fills → Except TransportError (Option (List UInt8)) × Fills
  | [] => (if bytes.isEmpty then .ok none else .error oversized, [])
  | .error error :: later => (.error (.process error), later)
  | .ok buffer :: later =>
    if buffer.isEmpty then (if bytes.isEmpty then .ok none else .error oversized, later)
    else match buffer.findIdx? fun byte => byte = 10 with
      | some position =>
        let line := bytes ++ buffer.take (position + 1)
        let rest := unread (buffer.drop (position + 1)) later
        if maxBytes < line.length ∨ line.getLast? ≠ some 10 then (.error oversized, rest)
        else (.ok (some line), rest)
      | none =>
        if maxBytes < bytes.length + buffer.length then (.error oversized, .ok buffer :: later)
        else readBoundedLine maxBytes (bytes ++ buffer) later

/-! ## The reader of the relay -/

namespace Control

def oversized : String := "control frame is oversized or unterminated"

/-- `bytes` is what the line has so far. -/
def readBoundedLine (maxBytes : ℕ) (bytes : List UInt8) :
    Fills → Except String (Option (List UInt8)) × Fills
  | [] => (if bytes.isEmpty then .ok none else .error oversized, [])
  | .error error :: later => (.error error, later)
  | .ok buffer :: later =>
    if buffer.isEmpty then (if bytes.isEmpty then .ok none else .error oversized, later)
    else match buffer.findIdx? fun byte => byte = 10 with
      | some position =>
        let line := bytes ++ buffer.take (position + 1)
        let rest := unread (buffer.drop (position + 1)) later
        if maxBytes < line.length ∨ line.getLast? ≠ some 10 then (.error oversized, rest)
        else (.ok (some line), rest)
      | none =>
        if maxBytes < bytes.length + buffer.length then (.error oversized, .ok buffer :: later)
        else readBoundedLine maxBytes (bytes ++ buffer) later

/-- What the relay says where the host gives the error. -/
def textOf : TransportError → String
  | .process error => error
  | _ => oversized

/-- The two readers differ in their errors only. -/
theorem readBoundedLine_eq (maxBytes : ℕ) (bytes : List UInt8) (fills : Fills) :
    readBoundedLine maxBytes bytes fills =
      ((Relay.readBoundedLine maxBytes bytes fills).1.mapError textOf,
        (Relay.readBoundedLine maxBytes bytes fills).2) := by
  induction fills generalizing bytes with
  | nil =>
    unfold readBoundedLine Relay.readBoundedLine
    split <;> rfl
  | cons fill later ih =>
    cases fill with
    | error error => rfl
    | ok buffer =>
      unfold readBoundedLine Relay.readBoundedLine
      split
      · split <;> rfl
      · cases buffer.findIdx? fun byte => byte = 10 with
        | some position =>
          dsimp only
          split <;> rfl
        | none =>
          dsimp only
          split
          · rfl
          · exact ih (bytes ++ buffer)

end Control

/-! ## The first line of a stream -/

section Lines

variable {stream line body before after rest : List UInt8}

/-- The bytes up to the first line break, which is the last of them. -/
def FirstLine (stream line : List UInt8) : Prop :=
  ∃ body rest, 10 ∉ body ∧ line = body ++ [10] ∧ stream = line ++ rest

theorem takeWhile_break (h : 10 ∉ body) :
    ((body ++ 10 :: rest).takeWhile fun byte => byte ≠ 10) = body := by
  have hall : ∀ byte ∈ body, decide (byte ≠ 10) = true := by
    intro byte hbyte
    exact decide_eq_true fun heq => h (heq ▸ hbyte)
  rw [List.takeWhile_append_of_pos hall]
  simp

theorem firstLine_iff (h : 10 ∉ body) :
    FirstLine (body ++ 10 :: rest) line ↔ line = body ++ [10] := by
  constructor
  · rintro ⟨other, more, hother, rfl, hstream⟩
    rw [List.append_assoc, List.singleton_append] at hstream
    rw [← takeWhile_break h, hstream, takeWhile_break hother]
  · rintro rfl
    exact ⟨body, rest, h, rfl, by simp⟩

/-- The first line is longer than what comes before a line break. -/
theorem FirstLine.length_lt (h : FirstLine (before ++ rest) line) (hbefore : 10 ∉ before) :
    before.length < line.length := by
  obtain ⟨body, more, -, rfl, hstream⟩ := h
  by_contra hshort
  obtain ⟨tail, htail⟩ : body ++ [10] <+: before :=
    List.prefix_of_prefix_length_le ⟨more, hstream.symm⟩ (List.prefix_append before rest)
      (Nat.le_of_not_lt hshort)
  refine hbefore ?_
  rw [← htail]
  simp

theorem findIdx?_break (h : 10 ∉ body) :
    ((body ++ 10 :: after).findIdx? fun byte => byte = 10) = some body.length := by
  have hnone : (body.findIdx? fun byte => byte = 10) = none := by
    rw [List.findIdx?_eq_none_iff]
    intro byte hbyte
    exact decide_eq_false fun heq => h (heq ▸ hbyte)
  rw [List.findIdx?_append, hnone]
  simp [List.findIdx?_cons]

theorem not_firstLine (h : 10 ∉ stream) : ¬ FirstLine stream line := by
  rintro ⟨body, rest, -, rfl, rfl⟩
  simp at h

end Lines

/-! ## What a call comes to -/

section Reads

variable {ε : Type} {refused : ε} {maxBytes : ℕ} {stream bytes line : List UInt8}
  {result : Except ε (Option (List UInt8)) × Fills}

/-- The chunks of a stream, none of them empty. -/
def Splits (stream : List UInt8) (chunks : List (List UInt8)) : Prop :=
  (∀ chunk ∈ chunks, chunk ≠ []) ∧ chunks.flatten = stream

/-- The result of a call that is to read one line of at most `maxBytes` bytes. -/
structure ReadsLine (refused : ε) (maxBytes : ℕ) (stream : List UInt8)
    (result : Except ε (Option (List UInt8)) × Fills) : Prop where
  nothing : result.1 = .ok none ↔ stream = []
  line : ∀ line, result.1 = .ok (some line) ↔ FirstLine stream line ∧ line.length ≤ maxBytes
  refused : result.1 = .error refused ↔
    stream ≠ [] ∧ ∀ line, FirstLine stream line → maxBytes < line.length
  left : ∀ line, result.1 = .ok (some line) →
    ∃ rest later, stream = line ++ rest ∧ Splits rest later ∧ result.2 = later.map .ok

namespace ReadsLine

theorem of_empty (fills : Fills) : ReadsLine refused maxBytes [] (.ok none, fills) where
  nothing := iff_of_true rfl rfl
  line line := by
    refine iff_of_false (fun h => by cases h) fun h => ?_
    exact not_firstLine List.not_mem_nil h.1
  refused := iff_of_false (fun h => by cases h) fun h => h.1 rfl
  left line h := by cases h

theorem of_line {body rest : List UInt8} {later : List (List UInt8)} (hbody : 10 ∉ body)
    (hfits : body.length + 1 ≤ maxBytes) (hlater : Splits rest later) :
    ReadsLine refused maxBytes (body ++ 10 :: rest) (.ok (some (body ++ [10])), later.map .ok) where
  nothing := iff_of_false (fun h => by cases h) (by simp)
  line line := by
    rw [firstLine_iff hbody]
    constructor
    · intro h
      obtain rfl : body ++ [10] = line := Option.some.inj (Except.ok.inj h)
      exact ⟨rfl, by rwa [List.length_append]⟩
    · rintro ⟨rfl, -⟩
      rfl
  refused := by
    refine iff_of_false (fun h => by cases h) fun h => ?_
    have hlong := h.2 _ ((firstLine_iff hbody).2 rfl)
    rw [List.length_append, List.length_singleton] at hlong
    omega
  left line h := by
    obtain rfl : body ++ [10] = line := Option.some.inj (Except.ok.inj h)
    exact ⟨rest, later, by simp, hlater, rfl⟩

theorem of_refused (hstream : stream ≠ [])
    (hlong : ∀ line, FirstLine stream line → maxBytes < line.length) (fills : Fills) :
    ReadsLine refused maxBytes stream (.error refused, fills) where
  nothing := iff_of_false (fun h => by cases h) hstream
  line line := iff_of_false (fun h => by cases h) fun h => absurd (hlong line h.1) h.2.not_gt
  refused := iff_of_true rfl ⟨hstream, hlong⟩
  left line h := by cases h

/-- The stream and the bound determine the result. -/
theorem result_eq {result' : Except ε (Option (List UInt8)) × Fills}
    (h : ReadsLine refused maxBytes stream result)
    (h' : ReadsLine refused maxBytes stream result') : result.1 = result'.1 := by
  by_cases hstream : stream = []
  · rw [h.nothing.2 hstream, h'.nothing.2 hstream]
  by_cases hline : ∃ line, FirstLine stream line ∧ line.length ≤ maxBytes
  · obtain ⟨line, hline⟩ := hline
    rw [(h.line line).2 hline, (h'.line line).2 hline]
  · have hlong : ∀ line, FirstLine stream line → maxBytes < line.length := fun line hfirst =>
      Nat.lt_of_not_le fun hle => hline ⟨line, hfirst, hle⟩
    rw [h.refused.2 ⟨hstream, hlong⟩, h'.refused.2 ⟨hstream, hlong⟩]

/-- The same call with another error. -/
theorem mapError {ε' : Type} (f : ε → ε') (h : ReadsLine refused maxBytes stream result) :
    ReadsLine (f refused) maxBytes stream (result.1.mapError f, result.2) := by
  have hok : ∀ found, result.1.mapError f = .ok found ↔ result.1 = .ok found := by
    intro found
    cases result.1 <;> simp [Except.mapError]
  refine ⟨(hok none).trans h.nothing, fun line => (hok _).trans (h.line line), ?_,
    fun line hline => h.left line ((hok _).1 hline)⟩
  constructor
  · intro herror
    refine ⟨fun hstream => ?_, fun line hfirst => Nat.lt_of_not_le fun hle => ?_⟩
    · have hnone := (hok none).2 (h.nothing.2 hstream)
      cases herror.symm.trans hnone
    · have hsome := (hok (some line)).2 ((h.line line).2 ⟨hfirst, hle⟩)
      cases herror.symm.trans hsome
  · intro hlong
    show result.1.mapError f = _
    rw [h.refused.2 hlong]
    rfl

end ReadsLine

theorem splits_unread (after : List UInt8) {chunks : List (List UInt8)}
    (hchunks : ∀ chunk ∈ chunks, chunk ≠ []) :
    ∃ later, Splits (after ++ chunks.flatten) later ∧
      unread after (chunks.map .ok) = later.map .ok := by
  cases after with
  | nil => exact ⟨chunks, ⟨hchunks, rfl⟩, rfl⟩
  | cons byte after =>
    refine ⟨(byte :: after) :: chunks, ⟨fun chunk hchunk => ?_, rfl⟩, rfl⟩
    rcases List.mem_cons.1 hchunk with rfl | hchunk
    · exact List.cons_ne_nil byte after
    · exact hchunks chunk hchunk

/-- The call goes on from `bytes`, which are a part of the line. -/
theorem readsLine_chunks {chunks : List (List UInt8)} (hchunks : ∀ chunk ∈ chunks, chunk ≠ [])
    (hbytes : 10 ∉ bytes) (hfits : bytes.length ≤ maxBytes) :
    ReadsLine oversized maxBytes (bytes ++ chunks.flatten)
      (readBoundedLine maxBytes bytes (chunks.map .ok)) := by
  induction chunks generalizing bytes with
  | nil =>
    rw [List.flatten_nil, List.append_nil, List.map_nil]
    unfold readBoundedLine
    cases bytes with
    | nil => exact ReadsLine.of_empty []
    | cons byte bytes =>
      exact ReadsLine.of_refused (List.cons_ne_nil byte bytes)
        (fun line hline => absurd hline (not_firstLine hbytes)) []
  | cons chunk chunks ih =>
    have hchunk : chunk.isEmpty = false := by
      simpa using hchunks chunk List.mem_cons_self
    have hothers : ∀ other ∈ chunks, other ≠ [] := fun other hother =>
      hchunks other (List.mem_cons_of_mem chunk hother)
    have hstream : bytes ++ (chunk :: chunks).flatten ≠ [] := by
      simp [hchunks chunk List.mem_cons_self]
    simp only [List.map_cons, readBoundedLine, hchunk, Bool.false_eq_true, if_false]
    by_cases hbreak : 10 ∈ chunk
    · -- the chunk ends the line
      obtain ⟨body, after, rfl, hbody⟩ := List.eq_append_cons_of_mem hbreak
      have hline : 10 ∉ bytes ++ body := by
        rw [List.mem_append, not_or]
        exact ⟨hbytes, hbody⟩
      have htake : (body ++ 10 :: after).take (body.length + 1) = body ++ [10] := by
        rw [List.take_append, List.take_of_length_le (Nat.le_succ _)]
        simp
      have hdrop : (body ++ 10 :: after).drop (body.length + 1) = after := by
        rw [List.drop_append, List.drop_eq_nil_of_le (Nat.le_succ _)]
        simp
      have hsplit : bytes ++ ((body ++ 10 :: after) :: chunks).flatten =
          (bytes ++ body) ++ 10 :: (after ++ chunks.flatten) := by
        simp
      rw [findIdx?_break hbody]
      dsimp only
      rw [htake, hdrop, ← List.append_assoc, List.getLast?_concat, hsplit]
      split
      · rename_i hlong
        refine ReadsLine.of_refused (by simp) (fun line hfirst => ?_) _
        rw [(firstLine_iff hline).1 hfirst]
        simpa using hlong
      · rename_i hshort
        have hfits' : (bytes ++ body).length + 1 ≤ maxBytes := by
          rw [not_or, not_lt, List.length_append, List.length_singleton] at hshort
          exact hshort.1
        obtain ⟨later, hlater, hunread⟩ := splits_unread after hothers
        rw [hunread]
        exact ReadsLine.of_line hline hfits' hlater
    · -- the chunk is a part of the line
      have hnone : (chunk.findIdx? fun byte => byte = 10) = none := by
        rw [List.findIdx?_eq_none_iff]
        intro byte hbyte
        exact decide_eq_false fun heq => hbreak (heq ▸ hbyte)
      have hmore : 10 ∉ bytes ++ chunk := by
        rw [List.mem_append, not_or]
        exact ⟨hbytes, hbreak⟩
      rw [hnone]
      dsimp only
      split
      · rename_i hlong
        refine ReadsLine.of_refused hstream (fun line hline => ?_) _
        rw [List.flatten_cons, ← List.append_assoc] at hline
        have hlength := hline.length_lt hmore
        rw [List.length_append] at hlength
        omega
      · rename_i hshort
        rw [List.flatten_cons, ← List.append_assoc]
        exact ih hothers hmore (by rw [List.length_append]; omega)

theorem bounded_line {chunks : List (List UInt8)} (h : Splits stream chunks) :
    ReadsLine oversized maxBytes stream (readBoundedLine maxBytes [] (chunks.map .ok)) := by
  obtain ⟨hchunks, rfl⟩ := h
  exact readsLine_chunks hchunks List.not_mem_nil (Nat.zero_le _)

/-- Both readers read the first line of the stream, or fail, whatever its chunks are, and leave
what comes after it in chunks. -/
theorem bounded_line_of_chunks (maxBytes : ℕ) {stream : List UInt8} {chunks : List (List UInt8)}
    (h : Splits stream chunks) :
    ReadsLine oversized maxBytes stream (readBoundedLine maxBytes [] (chunks.map .ok)) ∧
    ReadsLine Control.oversized maxBytes stream
      (Control.readBoundedLine maxBytes [] (chunks.map .ok)) ∧
    (readBoundedLine maxBytes [] (chunks.map .ok)).1.toOption =
      (Control.readBoundedLine maxBytes [] (chunks.map .ok)).1.toOption ∧
    (readBoundedLine maxBytes [] (chunks.map .ok)).2 =
      (Control.readBoundedLine maxBytes [] (chunks.map .ok)).2 ∧
    ∀ other, Splits stream other →
      (readBoundedLine maxBytes [] (other.map .ok)).1 =
        (readBoundedLine maxBytes [] (chunks.map .ok)).1 ∧
      (Control.readBoundedLine maxBytes [] (other.map .ok)).1 =
        (Control.readBoundedLine maxBytes [] (chunks.map .ok)).1 := by
  have hrelay : ∀ {chunks}, Splits stream chunks → ReadsLine Control.oversized maxBytes stream
      (Control.readBoundedLine maxBytes [] (chunks.map .ok)) := by
    intro chunks h
    rw [Control.readBoundedLine_eq]
    exact (bounded_line h).mapError Control.textOf
  refine ⟨bounded_line h, hrelay h, ?_, ?_, fun other hother =>
    ⟨(bounded_line hother).result_eq (bounded_line h), (hrelay hother).result_eq (hrelay h)⟩⟩
  · rw [Control.readBoundedLine_eq]
    cases (readBoundedLine maxBytes [] (chunks.map .ok)).1 <;> rfl
  · rw [Control.readBoundedLine_eq]

/-- A line of four bytes and a part of the next one, which arrive in three chunks. -/
theorem bounded_line_of_chunks_three :
    (readBoundedLine 4 [] ([[97], [98, 99, 10, 100], [101]].map .ok)).1 =
      .ok (some [97, 98, 99, 10]) ∧
    (Control.readBoundedLine 3 [] ([[97], [98, 99, 10, 100], [101]].map .ok)).1 =
      .error Control.oversized := by
  have hsplits : Splits [97, 98, 99, 10, 100, 101] [[97], [98, 99, 10, 100], [101]] :=
    ⟨by decide, rfl⟩
  have hfirst : FirstLine [97, 98, 99, 10, 100, 101] [97, 98, 99, 10] :=
    ⟨[97, 98, 99], [100, 101], by decide, rfl, rfl⟩
  refine ⟨((bounded_line_of_chunks 4 hsplits).1.line _).2 ⟨hfirst, by decide⟩,
    (bounded_line_of_chunks 3 hsplits).2.1.refused.2 ⟨by decide, fun line hline => ?_⟩⟩
  have hbody : (10 : UInt8) ∉ [97, 98, 99] := by decide
  have hiff : FirstLine ([97, 98, 99] ++ 10 :: [100, 101]) line ↔ _ := firstLine_iff hbody
  rw [hiff.1 hline]
  decide

end Reads

end Relay

end LlmNotch
