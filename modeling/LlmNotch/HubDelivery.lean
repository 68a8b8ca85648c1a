import LlmNotch.StreamHub

/-!
# Delivery through the hub

In every interleaving the buffer is an end of the frames taken, which are numbered from one
(`Sound`). A subscriber whose sender works has received, or is about to be sent, exactly the
frames taken after the sequence number it subscribed with (`Follows`).

`stream_exactly_once` is this for a core whose frames all fit. A frame that does not fit is
not taken and the core counts it : no later frame has the number the hub asks for, and
`frame_taken_iff` says that a fitting frame is taken exactly if all frames before it fit.
-/

namespace LlmNotch

namespace Hub

variable {bytes : StreamFrame → Option ℕ} {bufferCapacity : ℕ} {w w' : HubWorld}

/-! ## Numbered frames -/

theorem evict_eq (bufferCapacity : ℕ) (frames : List StreamFrame) :
    evict bufferCapacity frames = frames.drop (frames.length - bufferCapacity) := by
  induction frames with
  | nil => simp [evict]
  | cons f fs ih =>
    unfold evict
    by_cases h : bufferCapacity < (f :: fs).length
    · rw [if_pos h, ih]
      have hlen : (f :: fs).length - bufferCapacity = (fs.length - bufferCapacity) + 1 := by
        simp only [List.length_cons] at h ⊢
        omega
      rw [hlen, List.drop_succ_cons]
    · rw [if_neg h, Nat.sub_eq_zero_of_le (Nat.not_lt.1 h), List.drop_zero]

/-- Eviction after each frame keeps an end of the frames. -/
theorem drop_snoc_drop (frames : List StreamFrame) (f : StreamFrame) {c : ℕ} (hc : 0 < c) :
    evict c (frames.drop (frames.length - c) ++ [f]) =
      (frames ++ [f]).drop ((frames ++ [f]).length - c) := by
  rw [evict_eq, List.length_append, List.length_drop, List.length_append, List.length_singleton]
  have hdrop : frames.drop (frames.length - c) ++ [f] =
      (frames ++ [f]).drop (frames.length - c) :=
    (List.drop_append_of_le_length (Nat.sub_le _ _)).symm
  rw [hdrop, List.drop_drop]
  congr 1
  omega

/-- The frames are numbered from `start`. -/
def Numbered (start : ℕ) (frames : List StreamFrame) : Prop :=
  frames.map (·.sequence) = List.range' start frames.length

theorem Numbered.drop {start : ℕ} {frames : List StreamFrame} (h : Numbered start frames)
    (n : ℕ) : Numbered (start + n) (frames.drop n) := by
  unfold Numbered at *
  rw [List.map_drop, h, List.drop_range', List.length_drop]
  simp

theorem Numbered.snoc {start : ℕ} {frames : List StreamFrame} {f : StreamFrame}
    (h : Numbered start frames) (hf : f.sequence = start + frames.length) :
    Numbered start (frames ++ [f]) := by
  unfold Numbered at *
  rw [List.map_append, h, List.map_singleton, List.length_append, List.length_singleton,
    List.range'_concat, hf]
  simp

/-- The frames of a numbered list above a number are an end of it. -/
theorem Numbered.filter_eq {start : ℕ} {frames : List StreamFrame} (h : Numbered start frames)
    (a : ℕ) : frames.filter (a < ·.sequence) = frames.drop (a + 1 - start) := by
  induction frames generalizing start with
  | nil => simp
  | cons f fs ih =>
    have hcons : f.sequence = start ∧ Numbered (start + 1) fs := by
      simpa [Numbered, List.range'_succ] using h
    obtain ⟨hf, hfs⟩ := hcons
    have hrest := ih hfs
    by_cases ha : a < start
    · have hzero : a + 1 - start = 0 := by omega
      have hzero' : a + 1 - (start + 1) = 0 := by omega
      rw [hzero'] at hrest
      rw [List.filter_cons_of_pos (by simpa [hf] using ha), hrest, hzero]
      rfl
    · have hsucc : a + 1 - start = (a + 1 - (start + 1)) + 1 := by omega
      rw [List.filter_cons_of_neg (by simpa [hf] using ha), hrest, hsucc, List.drop_succ_cons]

/-! ## The hub in every interleaving -/

/-- What holds of the hub and its publisher in every state. -/
structure Sound (bufferCapacity : ℕ) (w : HubWorld) : Prop where
  numbered : Numbered 1 w.published
  buffered : w.inner.frames = w.published.drop (w.published.length - bufferCapacity)
  counted : w.published.length ≤ w.streamSequence
  bounded : w.streamSequence < 2 ^ 64
  registered : ∀ id ∈ w.inner.subscribers, id ∈ w.issued
  waiting : ∀ p, w.publishing = some p → p.waiting.Nodup ∧ ∀ id ∈ p.waiting, id ∈ w.issued
  failed : ∀ p, w.publishing = some p → ∀ id ∈ p.failed, id ∈ w.issued

namespace Sound

theorem start (bufferCapacity : ℕ) : Sound bufferCapacity {} where
  numbered := rfl
  buffered := by simp
  counted := le_rfl
  bounded := by decide
  registered := fun id h => absurd h (AList.notMem_empty id)
  waiting := fun _ h => by cases h
  failed := fun _ h => by cases h

section

variable (h : Sound bufferCapacity w)

include h

section

variable (hcap : 0 < bufferCapacity)

include hcap

theorem getLast?_frames :
    w.inner.frames.getLast?.map (·.sequence) =
      if w.published.length = 0 then none else some w.published.length := by
  have hlast : w.inner.frames.getLast? = w.published.getLast? := by
    rw [h.buffered, List.getLast?_drop]
    split
    · rename_i hle
      have hzero : w.published.length = 0 := by omega
      rw [List.length_eq_zero_iff.1 hzero]
      rfl
    · rfl
  rw [hlast, ← List.getLast?_map, h.numbered, List.getLast?_range']
  simp

theorem latestSequence_eq : w.inner.latestSequence = w.published.length := by
  rw [HubInner.latestSequence, h.getLast?_frames hcap]
  split
  · rename_i hzero
    exact hzero.symm
  · rfl

/-- The hub asks for the number after the last frame it took. -/
theorem expected_eq (hnext : w.streamSequence + 1 < 2 ^ 64) :
    w.inner.expected = w.published.length + 1 := by
  have hmap : w.inner.frames.getLast?.map (fun last => saturatingAdd last.sequence 1) =
      (w.inner.frames.getLast?.map (·.sequence)).map fun n => saturatingAdd n 1 := by
    rw [Option.map_map]
    rfl
  rw [HubInner.expected, hmap, h.getLast?_frames hcap]
  have hcounted := h.counted
  split
  · rename_i hzero
    rw [hzero]
    rfl
  · show min (w.published.length + 1) (2 ^ 64 - 1) = w.published.length + 1
    omega

theorem oldestSequence_eq : w.inner.oldestSequence = w.published.length - bufferCapacity + 1 := by
  have hnum : (w.published.map (·.sequence))[w.published.length - bufferCapacity]? =
      (List.range' 1 w.published.length)[w.published.length - bufferCapacity]? := by
    rw [h.numbered]
  rw [HubInner.oldestSequence, h.buffered, List.head?_drop, ← List.getElem?_map, hnum]
  by_cases hlen : w.published.length = 0
  · rw [hlen]
    simp
  · rw [List.getElem?_range' (by omega)]
    show 1 + 1 * (w.published.length - bufferCapacity) = _
    omega

end

/-- A sequence number the hub still covers replays all frames after it. -/
theorem replaySince_eq {a : ℕ} (ha : w.published.length - bufferCapacity ≤ a) :
    w.inner.replaySince a = w.published.drop a := by
  rw [HubInner.replaySince, h.buffered, (h.numbered.drop _).filter_eq, List.drop_drop]
  congr 1
  omega

end

end Sound

/-! ## Steps -/

theorem publish_ok_iff {inner : HubInner} {frame : StreamFrame}
    {r : HubInner × List SubscriberId} :
    publish bytes bufferCapacity inner frame = .ok r ↔
      InLimit bytes frame ∧ frame.sequence = inner.expected ∧
        r = ({ inner with frames := evict bufferCapacity (inner.frames ++ [frame]) },
          inner.subscribers.keys) := by
  unfold publish
  by_cases hlimit : InLimit bytes frame
  · by_cases hseq : frame.sequence = inner.expected
    · simp [hlimit, hseq, eq_comm]
    · simp [hlimit, hseq]
  · simp [hlimit]

theorem replay_eq (send : StreamFrame → Bool) (frames : List StreamFrame)
    (h : (replay send frames).2 = true) : (replay send frames).1 = frames := by
  induction frames with
  | nil => rfl
  | cons f fs ih =>
    unfold replay at h ⊢
    by_cases hsend : send f = true
    · rw [if_pos hsend] at h ⊢
      rw [ih h]
    · rw [if_neg hsend] at h
      cases h

variable {r : HubInner × List StreamFrame} {label windowLabel : String} {a : ℕ}
  {send : StreamFrame → Bool} {i id : SubscriberId} {act : HubAct} {acts : List HubAct}

theorem subscribe_ok {inner : HubInner} (h : subscribe inner windowLabel a send id = .ok r) :
    ¬ReplayGap inner a ∧ r = ({ inner with subscribers := inner.subscribers.insert id windowLabel },
      inner.replaySince a) := by
  unfold subscribe at h
  by_cases hlabel : windowLabel = "overlay" ∨ windowLabel = "dashboard"
  · rw [if_neg (not_not.2 hlabel)] at h
    by_cases hgap : ReplayGap inner a
    · rw [if_pos hgap] at h
      cases h
    · rw [if_neg hgap] at h
      refine ⟨hgap, ?_⟩
      have hreplay := replay_eq send (inner.replaySince a)
      generalize replay send (inner.replaySince a) = result at h hreplay
      obtain ⟨delivered, taken⟩ := result
      cases taken with
      | false => cases h
      | true =>
        cases h
        rw [← hreplay rfl]
  · rw [if_pos hlabel] at h
    cases h

theorem subscribe_gap_iff {inner : HubInner} :
    subscribe inner windowLabel a send id = .error (.replayGap a) ↔
      (windowLabel = "overlay" ∨ windowLabel = "dashboard") ∧ ReplayGap inner a := by
  unfold subscribe
  by_cases hlabel : windowLabel = "overlay" ∨ windowLabel = "dashboard"
  · rw [if_neg (not_not.2 hlabel)]
    by_cases hgap : ReplayGap inner a
    · rw [if_pos hgap]
      simp [hlabel, hgap]
    · rw [if_neg hgap]
      generalize replay send (inner.replaySince a) = result
      obtain ⟨delivered, taken⟩ := result
      cases taken with
      | false => simp [hgap]
      | true => simp [hgap]
  · rw [if_pos hlabel]
    simp [hlabel]

/-- What one step does. -/
theorem hubStep_cases (h : hubStep bytes bufferCapacity w act = some w') :
    (∃ e payload, act = .publish e payload ∧ w.publishing = none ∧
      ¬(InLimit bytes (w.nextFrame e payload) ∧ w.streamSequence + 1 = w.inner.expected) ∧
      w' = { w with streamSequence := w.streamSequence + 1 }) ∨
    (∃ e payload, act = .publish e payload ∧ w.publishing = none ∧
      InLimit bytes (w.nextFrame e payload) ∧ w.streamSequence + 1 = w.inner.expected ∧
      w' = { w with
        inner := { w.inner with
          frames := evict bufferCapacity (w.inner.frames ++ [w.nextFrame e payload]) }
        publishing := some
          { frame := w.nextFrame e payload, waiting := w.inner.subscribers.keys }
        streamSequence := w.streamSequence + 1
        published := w.published ++ [w.nextFrame e payload] }) ∨
    (∃ id p, act = .send id true ∧ w.publishing = some p ∧ id ∈ p.waiting ∧
      w' = { w with
        publishing := some { p with waiting := p.waiting.erase id }
        received := Function.update w.received id (w.received id ++ [p.frame]) }) ∨
    (∃ id p, act = .send id false ∧ w.publishing = some p ∧ id ∈ p.waiting ∧
      w' = { w with
        publishing := some
          { p with waiting := p.waiting.erase id, failed := p.failed ++ [id] } }) ∨
    (∃ p, act = .finish ∧ w.publishing = some p ∧ p.waiting = [] ∧
      w' = { w with
        inner := { w.inner with
          subscribers := p.failed.foldl (fun m id => m.erase id) w.inner.subscribers }
        publishing := none }) ∨
    (∃ id label a send, act = .subscribe id label a send ∧ w' = w) ∨
    (∃ id label a send, act = .subscribe id label a send ∧ ¬ReplayGap w.inner a ∧
      w' = { w with
        inner := { w.inner with subscribers := w.inner.subscribers.insert id label }
        received := Function.update w.received id (w.inner.replaySince a)
        issued := id :: w.issued }) ∨
    (∃ id label, act = .unsubscribe id label ∧
      w' = { w with inner := (unsubscribe w.inner id label).1 }) := by
  cases act with
  | publish e payload =>
    simp only [hubStep] at h
    split at h
    · cases h
    · rename_i hnone
      split at h
      · rename_i err herr
        refine .inl ⟨e, payload, rfl, hnone, fun hok => ?_, (Option.some.inj h).symm⟩
        cases herr.symm.trans (publish_ok_iff.2 ⟨hok.1, hok.2, rfl⟩)
      · rename_i inner waiting hok
        obtain ⟨hlimit, hseq, hr⟩ := publish_ok_iff.1 hok
        obtain ⟨rfl, rfl⟩ := Prod.mk.inj hr
        exact .inr (.inl ⟨e, payload, rfl, hnone, hlimit, hseq, (Option.some.inj h).symm⟩)
  | send id ok =>
    simp only [hubStep] at h
    split at h
    · cases h
    · rename_i p hp
      by_cases hmem : id ∈ p.waiting
      · rw [if_pos hmem] at h
        cases ok with
        | true => exact .inr (.inr (.inl ⟨id, p, rfl, hp, hmem, (Option.some.inj h).symm⟩))
        | false =>
          exact .inr (.inr (.inr (.inl ⟨id, p, rfl, hp, hmem, (Option.some.inj h).symm⟩)))
      · rw [if_neg hmem] at h
        cases h
  | finish =>
    simp only [hubStep] at h
    split at h
    · cases h
    · rename_i p hp
      by_cases hdone : p.waiting = []
      · rw [if_pos hdone] at h
        exact .inr (.inr (.inr (.inr (.inl ⟨p, rfl, hp, hdone, (Option.some.inj h).symm⟩))))
      · rw [if_neg hdone] at h
        cases h
  | subscribe id label a send =>
    simp only [hubStep] at h
    split at h
    · exact .inr (.inr (.inr (.inr (.inr (.inl
        ⟨id, label, a, send, rfl, (Option.some.inj h).symm⟩)))))
    · rename_i inner delivered hok
      obtain ⟨hgap, hr⟩ := subscribe_ok hok
      obtain ⟨rfl, rfl⟩ := Prod.mk.inj hr
      exact .inr (.inr (.inr (.inr (.inr (.inr (.inl
        ⟨id, label, a, send, rfl, hgap, (Option.some.inj h).symm⟩))))))
  | unsubscribe id label =>
    exact .inr (.inr (.inr (.inr (.inr (.inr (.inr
      ⟨id, label, rfl, (Option.some.inj h).symm⟩))))))

theorem mem_unsubscribe {inner : HubInner} (h : i ∈ (unsubscribe inner id label).1.subscribers) :
    i ∈ inner.subscribers := by
  unfold unsubscribe at h
  by_cases hlabel : inner.subscribers.lookup id = some label
  · rw [if_pos hlabel] at h
    exact (AList.mem_erase.1 h).2
  · rwa [if_neg hlabel] at h

@[simp] theorem frames_unsubscribe (inner : HubInner) (id : SubscriberId) (label : String) :
    (unsubscribe inner id label).1.frames = inner.frames := by
  unfold unsubscribe
  split
  · rfl
  · rfl

theorem mem_eraseAll {ids : List SubscriberId} {m : Dict SubscriberId String} :
    i ∈ ids.foldl (fun m id => m.erase id) m ↔ i ∉ ids ∧ i ∈ m := by
  induction ids generalizing m with
  | nil => simp
  | cons id ids ih =>
    rw [List.foldl_cons, ih, AList.mem_erase, List.mem_cons, not_or]
    tauto

/-- Every step keeps the hub sound. -/
theorem Sound.step (hcap : 0 < bufferCapacity) (hok : Regular w act) (hw : Sound bufferCapacity w)
    (h : hubStep bytes bufferCapacity w act = some w') : Sound bufferCapacity w' := by
  obtain ⟨e, payload, rfl, hrest, -, rfl⟩ | ⟨e, payload, rfl, hrest, hlimit, hseq, rfl⟩ |
    ⟨id, p, rfl, hp, hid, rfl⟩ | ⟨id, p, rfl, hp, hid, rfl⟩ | ⟨p, rfl, hp, hdone, rfl⟩ |
    ⟨id, label, a, send, rfl, rfl⟩ | ⟨id, label, a, send, rfl, hgap, rfl⟩ |
    ⟨id, label, rfl, rfl⟩ := hubStep_cases h
  · exact ⟨hw.numbered, hw.buffered, hw.counted.trans (Nat.le_succ _), hok, hw.registered,
      hw.waiting, hw.failed⟩
  · have hnext : w.streamSequence + 1 = w.published.length + 1 :=
      hseq.trans (hw.expected_eq hcap hok)
    refine ⟨hw.numbered.snoc ?_, ?_, ?_, hok, hw.registered, ?_, ?_⟩
    · show w.streamSequence + 1 = 1 + w.published.length
      omega
    · show evict bufferCapacity (w.inner.frames ++ _) = _
      rw [hw.buffered]
      exact drop_snoc_drop _ _ hcap
    · show (w.published ++ _).length ≤ w.streamSequence + 1
      rw [List.length_append, List.length_singleton]
      omega
    · intro p hp
      cases hp
      exact ⟨AList.keys_nodup _, fun id hid => hw.registered id hid⟩
    · intro p hp
      cases hp
      exact fun id hid => absurd hid List.not_mem_nil
  · obtain ⟨hnodup, hissued⟩ := hw.waiting p hp
    refine ⟨hw.numbered, hw.buffered, hw.counted, hw.bounded, hw.registered, ?_, ?_⟩
    · intro q hq
      cases hq
      exact ⟨hnodup.erase id, fun i hi => hissued i (List.mem_of_mem_erase hi)⟩
    · intro q hq
      cases hq
      exact hw.failed p hp
  · obtain ⟨hnodup, hissued⟩ := hw.waiting p hp
    refine ⟨hw.numbered, hw.buffered, hw.counted, hw.bounded, hw.registered, ?_, ?_⟩
    · intro q hq
      cases hq
      exact ⟨hnodup.erase id, fun i hi => hissued i (List.mem_of_mem_erase hi)⟩
    · intro q hq i hi
      cases hq
      obtain hi | rfl := List.mem_append.1 hi |>.imp_right List.mem_singleton.1
      · exact hw.failed p hp i hi
      · exact hissued i hid
  · refine ⟨hw.numbered, hw.buffered, hw.counted, hw.bounded, ?_, ?_, ?_⟩
    · exact fun id hid => hw.registered id (mem_eraseAll.1 hid).2
    · intro q hq
      cases hq
    · intro q hq
      cases hq
  · exact hw
  · refine ⟨hw.numbered, hw.buffered, hw.counted, hw.bounded, ?_, ?_, ?_⟩
    · intro i hi
      obtain rfl | hi := (AList.mem_insert _).1 hi
      · exact List.mem_cons_self
      · exact List.mem_cons_of_mem _ (hw.registered i hi)
    · exact fun p hp => ⟨(hw.waiting p hp).1,
        fun i hi => List.mem_cons_of_mem _ ((hw.waiting p hp).2 i hi)⟩
    · exact fun p hp i hi => List.mem_cons_of_mem _ (hw.failed p hp i hi)
  · refine ⟨hw.numbered, ?_, hw.counted, hw.bounded, ?_, hw.waiting, hw.failed⟩
    · exact (frames_unsubscribe _ _ _).trans hw.buffered
    · exact fun i hi => hw.registered i (mem_unsubscribe hi)

theorem sound_run (hcap : 0 < bufferCapacity)
    (hg : Guarded (hubStep bytes bufferCapacity) Regular w acts) (hw : Sound bufferCapacity w)
    (h : run (hubStep bytes bufferCapacity) w acts = some w') : Sound bufferCapacity w' :=
  Guarded.invariant (fun _ _ _ hok hs hstep => hs.step hcap hok hstep) hw hg h

/-! ## A subscriber -/

/-- A subscriber has received, or will be sent, the frames after a sequence number. -/
structure Follows (id : SubscriberId) (a : ℕ) (w : HubWorld) : Prop where
  subscribed : id ∈ w.inner.subscribers
  working : ∀ p, w.publishing = some p → id ∉ p.failed
  within : a ≤ w.published.length
  delivered : w.received id ++ w.inFlight id = w.published.drop a

/-- The action leaves the subscriber in place : its sender does not fail and it is not
unsubscribed. -/
def Spares (id : SubscriberId) (act : HubAct) : Prop :=
  act ≠ .send id false ∧ ∀ label, act ≠ .unsubscribe id label

theorem inFlight_of_none (h : w.publishing = none) : w.inFlight id = [] := by
  unfold HubWorld.inFlight
  rw [h]

theorem inFlight_of_some {p : Publishing} (h : w.publishing = some p) :
    w.inFlight id = if id ∈ p.waiting then [p.frame] else [] := by
  unfold HubWorld.inFlight
  rw [h]

theorem mem_unsubscribe_of_ne {inner : HubInner} (h : i ∈ inner.subscribers) (hne : i ≠ id) :
    i ∈ (unsubscribe inner id label).1.subscribers := by
  unfold unsubscribe
  by_cases hlabel : inner.subscribers.lookup id = some label
  · rw [if_pos hlabel]
    exact AList.mem_erase.2 ⟨hne, h⟩
  · rwa [if_neg hlabel]

theorem Follows.step (hok : Regular w act) (hspares : Spares id act) (hw : Sound bufferCapacity w)
    (hf : Follows id a w) (h : hubStep bytes bufferCapacity w act = some w') : Follows id a w' := by
  have hissued := hw.registered id hf.subscribed
  obtain ⟨e, payload, rfl, hrest, -, rfl⟩ | ⟨e, payload, rfl, hrest, hlimit, hseq, rfl⟩ |
    ⟨i, p, rfl, hp, hi, rfl⟩ | ⟨i, p, rfl, hp, hi, rfl⟩ | ⟨p, rfl, hp, hdone, rfl⟩ |
    ⟨i, label, b, send, rfl, rfl⟩ | ⟨i, label, b, send, rfl, hgap, rfl⟩ |
    ⟨i, label, rfl, rfl⟩ := hubStep_cases h
  · exact ⟨hf.subscribed, hf.working, hf.within, hf.delivered⟩
  · refine ⟨hf.subscribed, ?_, ?_, ?_⟩
    · intro p hp
      cases hp
      exact List.not_mem_nil
    · exact hf.within.trans (by simp)
    · have hbefore := hf.delivered
      rw [inFlight_of_none hrest, List.append_nil] at hbefore
      have hkey : id ∈ w.inner.subscribers.keys := hf.subscribed
      rw [inFlight_of_some rfl, if_pos hkey]
      show w.received id ++ _ = (w.published ++ _).drop a
      rw [List.drop_append_of_le_length hf.within, hbefore]
  · refine ⟨hf.subscribed, ?_, hf.within, ?_⟩
    · intro q hq
      cases hq
      exact hf.working p hp
    · have hbefore := hf.delivered
      rw [inFlight_of_some hp] at hbefore
      rw [inFlight_of_some rfl]
      by_cases hid : id = i
      · subst hid
        rw [if_pos hi] at hbefore
        rw [if_neg (hw.waiting p hp).1.not_mem_erase, List.append_nil]
        show Function.update w.received id _ id = w.published.drop a
        rw [Function.update_self]
        exact hbefore
      · simpa [List.mem_erase_of_ne hid, hid] using hbefore
  · have hid : id ≠ i := fun heq => hspares.1 (by rw [heq])
    refine ⟨hf.subscribed, ?_, hf.within, ?_⟩
    · intro q hq
      cases hq
      simp [hid, hf.working p hp]
    · have hbefore := hf.delivered
      rw [inFlight_of_some hp] at hbefore
      rw [inFlight_of_some rfl]
      simpa [List.mem_erase_of_ne hid] using hbefore
  · refine ⟨mem_eraseAll.2 ⟨hf.working p hp, hf.subscribed⟩, ?_, hf.within, ?_⟩
    · intro q hq
      cases hq
    · have hbefore := hf.delivered
      rw [inFlight_of_some hp, hdone] at hbefore
      rw [inFlight_of_none rfl]
      simpa using hbefore
  · exact hf
  · have hid : id ≠ i := fun heq => hok (heq ▸ hissued)
    refine ⟨(AList.mem_insert _).2 (.inr hf.subscribed), hf.working, hf.within, ?_⟩
    show Function.update w.received i _ id ++ w.inFlight id = _
    rw [Function.update_of_ne hid]
    exact hf.delivered
  · have hid : id ≠ i := fun heq => hspares.2 label (by rw [heq])
    exact ⟨mem_unsubscribe_of_ne hf.subscribed hid, hf.working, hf.within, hf.delivered⟩

/-- The replay of a successful subscription catches up with the frames taken. -/
theorem follows_subscribe (hcap : 0 < bufferCapacity) (hid : id ∉ w.issued)
    (hw : Sound bufferCapacity w) (hsub : subscribe w.inner label a send id = .ok r)
    (h : hubStep bytes bufferCapacity w (.subscribe id label a send) = some w') :
    Follows id a w' := by
  obtain ⟨hgap, rfl⟩ := subscribe_ok hsub
  simp only [hubStep, hsub] at h
  cases h
  have hbounded := hw.bounded
  have hcounted := hw.counted
  rw [ReplayGap, hw.latestSequence_eq hcap, hw.oldestSequence_eq hcap, saturatingAdd] at hgap
  refine ⟨(AList.mem_insert _).2 (.inl rfl), fun p hp hmem => hid (hw.failed p hp id hmem), ?_, ?_⟩
  · show a ≤ w.published.length
    omega
  · have hflight : w.inFlight id = [] := by
      cases hp : w.publishing with
      | none => exact inFlight_of_none hp
      | some p =>
        rw [inFlight_of_some hp, if_neg fun hmem => hid ((hw.waiting p hp).2 id hmem)]
    show Function.update w.received id _ id ++ w.inFlight id = _
    rw [Function.update_self, hflight, List.append_nil, hw.replaySince_eq (by omega)]

/-! ## Frames that fit -/

/-- The frame an action emits, if any, fits. -/
def Fits (bytes : StreamFrame → Option ℕ) (w : HubWorld) : HubAct → Prop
  | .publish emittedAtMs payload => InLimit bytes (w.nextFrame emittedAtMs payload)
  | _ => True

instance (bytes : StreamFrame → Option ℕ) (w : HubWorld) :
    (act : HubAct) → Decidable (Fits bytes w act)
  | .publish e payload => inferInstanceAs (Decidable (InLimit bytes (w.nextFrame e payload)))
  | .send _ _ | .finish | .subscribe _ _ _ _ | .unsubscribe _ _ => .isTrue True.intro

/-- A step keeps up with the core exactly if it was kept up with before and its frame fits. -/
theorem complete_step (hcap : 0 < bufferCapacity) (hok : Regular w act)
    (hw : Sound bufferCapacity w) (h : hubStep bytes bufferCapacity w act = some w') :
    w'.published.length = w'.streamSequence ↔
      w.published.length = w.streamSequence ∧ Fits bytes w act := by
  have hcounted := hw.counted
  obtain ⟨e, payload, rfl, hrest, hnot, rfl⟩ | ⟨e, payload, rfl, hrest, hlimit, hseq, rfl⟩ |
    ⟨i, p, rfl, hp, hi, rfl⟩ | ⟨i, p, rfl, hp, hi, rfl⟩ | ⟨p, rfl, hp, hdone, rfl⟩ |
    ⟨i, label, b, send, rfl, rfl⟩ | ⟨i, label, b, send, rfl, hgap, rfl⟩ |
    ⟨i, label, rfl, rfl⟩ := hubStep_cases h
  · rw [hw.expected_eq hcap hok] at hnot
    show w.published.length = w.streamSequence + 1 ↔ _
    constructor
    · intro heq
      omega
    · rintro ⟨heq, hfits⟩
      exact absurd ⟨hfits, by omega⟩ hnot
  · rw [hw.expected_eq hcap hok] at hseq
    show (w.published ++ _).length = w.streamSequence + 1 ↔ _
    rw [List.length_append, List.length_singleton]
    exact ⟨fun heq => ⟨by omega, hlimit⟩, fun heq => by omega⟩
  all_goals exact (and_iff_left trivial).symm

/-- The hub has taken every frame of a run exactly if all of them fit. -/
theorem complete_run (hcap : 0 < bufferCapacity)
    (hg : Guarded (hubStep bytes bufferCapacity) Regular w acts) (hw : Sound bufferCapacity w)
    (h : run (hubStep bytes bufferCapacity) w acts = some w') :
    w'.published.length = w'.streamSequence ↔ w.published.length = w.streamSequence ∧
      Guarded (hubStep bytes bufferCapacity) (Fits bytes) w acts := by
  induction acts generalizing w with
  | nil =>
    obtain rfl : w = w' := by simpa using h
    exact (and_iff_left trivial).symm
  | cons act acts ih =>
    obtain ⟨t, ht, htail⟩ := run_cons.1 h
    rw [ih (hg.2 t ht) (hw.step hcap hg.1 ht) htail, complete_step hcap hg.1 hw ht, and_assoc]
    refine and_congr_right fun _ => and_congr_right fun _ => ?_
    constructor
    · intro hrest u hu
      obtain rfl := Option.some.inj (ht.symm.trans hu)
      exact hrest
    · exact fun hrest => hrest t ht

/-! ## The stream of a subscriber -/

/-- A run of a core whose frames fit. -/
def Orderly (bytes : StreamFrame → Option ℕ) (w : HubWorld) (act : HubAct) : Prop :=
  Regular w act ∧ Fits bytes w act

instance (bytes : StreamFrame → Option ℕ) (w : HubWorld) (act : HubAct) :
    Decidable (Orderly bytes w act) :=
  inferInstanceAs (Decidable (_ ∧ _))

theorem follows_run (hcap : 0 < bufferCapacity)
    (hg : Guarded (hubStep bytes bufferCapacity) Regular w acts)
    (hspares : ∀ act ∈ acts, Spares id act) (hw : Sound bufferCapacity w) (hf : Follows id a w)
    (h : run (hubStep bytes bufferCapacity) w acts = some w') : Follows id a w' := by
  have hstep : ∀ s act t, Spares id act ∧ Regular s act → Sound bufferCapacity s ∧ Follows id a s →
      hubStep bytes bufferCapacity s act = some t → Sound bufferCapacity t ∧ Follows id a t :=
    fun _ _ _ hok hs ht => ⟨hs.1.step hcap hok.2 ht, hs.2.step hok.2 hok.1 hs.1 ht⟩
  exact (Guarded.invariant hstep ⟨hw, hf⟩ (hg.and_forall hspares) h).2

/-- Some number the replay needs has left the buffer. -/
theorem gap_iff (hcap : 0 < bufferCapacity) (hw : Sound bufferCapacity w) (a : ℕ) :
    ReplayGap w.inner a ↔ w.published.length < a ∨
      ∃ k, a < k ∧ k ≤ w.published.length ∧ ∀ f ∈ w.inner.frames, f.sequence ≠ k := by
  have hbounded := hw.bounded
  have hcounted := hw.counted
  have hmem : ∀ k, (∃ f ∈ w.inner.frames, f.sequence = k) ↔
      w.published.length - bufferCapacity < k ∧ k ≤ w.published.length := by
    intro k
    have hnum := hw.numbered.drop (w.published.length - bufferCapacity)
    rw [← hw.buffered] at hnum
    have hiff : k ∈ w.inner.frames.map (·.sequence) ↔
        w.published.length - bufferCapacity < k ∧ k ≤ w.published.length := by
      rw [hnum, hw.buffered, List.length_drop, List.mem_range'_1]
      omega
    simpa using hiff
  rw [ReplayGap, hw.latestSequence_eq hcap, hw.oldestSequence_eq hcap, saturatingAdd]
  constructor
  · rintro (hlt | ⟨hpos, hlt⟩)
    · exact .inl hlt
    · by_cases hle : w.published.length < a
      · exact .inl hle
      · refine .inr ⟨a + 1, Nat.lt_succ_self a, by omega, fun f hf hseq => ?_⟩
        have hbuf := (hmem (a + 1)).1 ⟨f, hf, hseq⟩
        omega
  · rintro (hlt | ⟨k, hak, hk, hgone⟩)
    · exact .inl hlt
    · have hold : ¬(w.published.length - bufferCapacity < k) := by
        intro hin
        obtain ⟨f, hf, hseq⟩ := (hmem k).2 ⟨hin, hk⟩
        exact hgone f hf hseq
      refine .inr ⟨by omega, by omega⟩

/-- In every interleaving of a core whose frames fit with any subscribers, a subscriber that
stays is delivered the frames after its sequence number, in order, and a subscription is
refused for a gap exactly if it needs a frame that left the buffer or is not there yet. -/
theorem stream_exactly_once (hcap : 0 < bufferCapacity) {acts : List HubAct}
    (hg : Guarded (hubStep bytes bufferCapacity) (Orderly bytes) {} acts)
    (hrun : run (hubStep bytes bufferCapacity) {} acts = some w) :
    (∀ pre id label a send post w₀ r, acts = pre ++ .subscribe id label a send :: post →
      run (hubStep bytes bufferCapacity) {} pre = some w₀ →
      subscribe w₀.inner label a send id = .ok r → (∀ act ∈ post, Spares id act) →
      w.received id ++ w.inFlight id = w.published.drop a ∧
      (w.received id ++ w.inFlight id).map (·.sequence) =
        List.range' (a + 1) (w.streamSequence - a)) ∧
    ∀ label a send id, subscribe w.inner label a send id = .error (.replayGap a) ↔
      (label = "overlay" ∨ label = "dashboard") ∧ (w.streamSequence < a ∨
        ∃ k, a < k ∧ k ≤ w.streamSequence ∧ ∀ f ∈ w.inner.frames, f.sequence ≠ k) := by
  have hregular : Guarded (hubStep bytes bufferCapacity) Regular {} acts :=
    hg.mono fun _ _ h => h.1
  have hw : Sound bufferCapacity w := sound_run hcap hregular (Sound.start _) hrun
  have hcomplete : w.published.length = w.streamSequence :=
    (complete_run hcap hregular (Sound.start _) hrun).2 ⟨rfl, hg.mono fun _ _ h => h.2⟩
  refine ⟨fun pre id label a send post w₀ r hacts hpre hsub hspares => ?_, ?_⟩
  · subst hacts
    obtain ⟨v, hv, hrest⟩ := run_append.1 hrun
    obtain rfl := Option.some.inj (hpre.symm.trans hv)
    obtain ⟨w₁, hw₁, hpost⟩ := run_cons.1 hrest
    have hgrest := hregular.append.2 w₀ hpre
    have hs₀ := sound_run hcap hregular.append.1 (Sound.start _) hpre
    have hf : Follows id a w := follows_run hcap (hgrest.2 w₁ hw₁) hspares
      (hs₀.step hcap hgrest.1 hw₁) (follows_subscribe hcap hgrest.1 hs₀ hsub hw₁) hpost
    refine ⟨hf.delivered, ?_⟩
    have hnum := hw.numbered.drop a
    rw [hf.delivered, hnum, List.length_drop, hcomplete, Nat.add_comm]
  · intro label a send id
    rw [subscribe_gap_iff, gap_iff hcap hw, hcomplete]

/-- A window subscribes while the first frame is being sent. -/
def lateWindow : List HubAct :=
  [.publish 10 .heartbeat, .subscribe 7 "overlay" 0 fun _ => true, .finish,
    .publish 20 .heartbeat, .send 7 true, .finish]

/-- The window is delivered both frames, the first by the replay. -/
theorem stream_exactly_once_late : ∃ w,
    run (hubStep (fun _ => some 64) 2) {} lateWindow = some w ∧
      (w.received 7 ++ w.inFlight 7).map (·.sequence) = [1, 2] := by
  obtain ⟨w, hw⟩ := Option.isSome_iff_exists.1
    (show (run (hubStep (fun _ => some 64) 2) {} lateWindow).isSome = true by decide)
  have hseq : w.streamSequence = 2 := by
    have h : (run (hubStep (fun _ => some 64) 2) {} lateWindow).map (·.streamSequence) = some 2 :=
      by decide
    rw [hw] at h
    exact Option.some.inj h
  have hg : Guarded (hubStep (fun _ => some 64) 2) (Orderly fun _ => some 64) {} lateWindow :=
    Guarded.of_decide (by decide)
  have hlate := (stream_exactly_once (by decide) hg hw).1 [.publish 10 .heartbeat] 7 "overlay" 0
    (fun _ => true) [.finish, .publish 20 .heartbeat, .send 7 true, .finish] _ _ rfl rfl rfl
    (by simp [Spares])
  rw [hseq] at hlate
  exact ⟨w, hw, hlate.2⟩

/-! ## A frame that does not fit -/

/-- A frame has reached a subscriber, or is on its way, or its sender failed. -/
def Reaches (id : SubscriberId) (frame : StreamFrame) (w : HubWorld) : Prop :=
  id ∈ w.issued ∧ (frame ∈ w.received id ∨ frame ∈ w.inFlight id)

theorem Reaches.step {frame : StreamFrame} (hok : Regular w act) (hspares : act ≠ .send id false)
    (hr : Reaches id frame w) (h : hubStep bytes bufferCapacity w act = some w') :
    Reaches id frame w' := by
  obtain ⟨hissued, hreach⟩ := hr
  obtain ⟨e, payload, rfl, hrest, -, rfl⟩ | ⟨e, payload, rfl, hrest, hlimit, hseq, rfl⟩ |
    ⟨i, p, rfl, hp, hi, rfl⟩ | ⟨i, p, rfl, hp, hi, rfl⟩ | ⟨p, rfl, hp, hdone, rfl⟩ |
    ⟨i, label, b, send, rfl, rfl⟩ | ⟨i, label, b, send, rfl, hgap, rfl⟩ |
    ⟨i, label, rfl, rfl⟩ := hubStep_cases h
  · exact ⟨hissued, hreach⟩
  · rw [inFlight_of_none hrest] at hreach
    exact ⟨hissued, .inl (hreach.resolve_right List.not_mem_nil)⟩
  · refine ⟨hissued, ?_⟩
    rw [inFlight_of_some hp] at hreach
    rw [inFlight_of_some rfl]
    by_cases hid : id = i
    · subst hid
      rw [if_pos hi] at hreach
      refine .inl ?_
      show frame ∈ Function.update w.received id _ id
      rw [Function.update_self]
      exact List.mem_append.2 hreach
    · simpa [List.mem_erase_of_ne hid, hid] using hreach
  · have hid : id ≠ i := fun heq => hspares (by rw [heq])
    refine ⟨hissued, ?_⟩
    rw [inFlight_of_some hp] at hreach
    rw [inFlight_of_some rfl]
    simpa [List.mem_erase_of_ne hid] using hreach
  · rw [inFlight_of_some hp, hdone] at hreach
    exact ⟨hissued, .inl (by simpa using hreach)⟩
  · exact ⟨hissued, hreach⟩
  · have hid : id ≠ i := fun heq => hok (heq ▸ hissued)
    refine ⟨List.mem_cons_of_mem _ hissued, hreach.imp_left fun hmem => ?_⟩
    show frame ∈ Function.update w.received i _ id
    rwa [Function.update_of_ne hid]
  · exact ⟨hissued, hreach⟩

/-- A frame with the right number is buffered and goes out to every subscriber. -/
theorem taken_step (hcap : 0 < bufferCapacity) {e : ℤ} {payload : StreamPayload}
    (hw : Sound bufferCapacity w) (hfits : InLimit bytes (w.nextFrame e payload))
    (hseq : w.streamSequence + 1 = w.inner.expected)
    (h : hubStep bytes bufferCapacity w (.publish e payload) = some w') :
    w.nextFrame e payload ∈ w'.inner.frames ∧
      ∀ id ∈ w.inner.subscribers, Reaches id (w.nextFrame e payload) w' := by
  obtain ⟨e', payload', hact, hrest, hnot, rfl⟩ | ⟨e', payload', hact, hrest, hlimit, -, rfl⟩ |
    ⟨i, p, hact, -⟩ | ⟨i, p, hact, -⟩ | ⟨p, hact, -⟩ | ⟨i, label, b, send, hact, -⟩ |
    ⟨i, label, b, send, hact, -⟩ | ⟨i, label, hact, -⟩ := hubStep_cases h
  · obtain ⟨rfl, rfl⟩ := HubAct.publish.inj hact
    exact absurd ⟨hfits, hseq⟩ hnot
  · obtain ⟨rfl, rfl⟩ := HubAct.publish.inj hact
    refine ⟨?_, fun id hid => ⟨hw.registered id hid, .inr ?_⟩⟩
    · show _ ∈ evict bufferCapacity (w.inner.frames ++ [w.nextFrame e payload])
      rw [evict_eq, List.length_append, List.length_singleton,
        List.drop_append_of_le_length (by omega)]
      exact List.mem_append_right _ (List.mem_singleton_self _)
    · have hkey : id ∈ w.inner.subscribers.keys := hid
      rw [inFlight_of_some rfl, if_pos hkey]
      exact List.mem_singleton_self _
  all_goals cases hact

/-- A frame of the core that fits is accepted, buffered and sent to all subscribers exactly
if every frame before it fits. -/
theorem frame_taken_iff (hcap : 0 < bufferCapacity) {pre post : List HubAct} {e : ℤ}
    {payload : StreamPayload} {w₀ w₁ : HubWorld}
    (hg : Guarded (hubStep bytes bufferCapacity) Regular {} (pre ++ .publish e payload :: post))
    (hpre : run (hubStep bytes bufferCapacity) {} pre = some w₀)
    (hpublish : hubStep bytes bufferCapacity w₀ (.publish e payload) = some w₁)
    (hpost : run (hubStep bytes bufferCapacity) w₁ post = some w) (hdone : w.publishing = none)
    (hfits : InLimit bytes (w₀.nextFrame e payload)) :
    ((∃ r, publish bytes bufferCapacity w₀.inner (w₀.nextFrame e payload) = .ok r) ∧
      w₀.nextFrame e payload ∈ w₁.inner.frames ∧
      ∀ id ∈ w₀.inner.subscribers, .send id false ∉ post →
        w₀.nextFrame e payload ∈ w.received id) ↔
      Guarded (hubStep bytes bufferCapacity) (Fits bytes) {} pre := by
  have hs₀ : Sound bufferCapacity w₀ := sound_run hcap hg.append.1 (Sound.start _) hpre
  have hgrest := hg.append.2 w₀ hpre
  have hcomplete := complete_run hcap hg.append.1 (Sound.start _) hpre
  constructor
  · rintro ⟨⟨r, hr⟩, -⟩
    have hseq : w₀.streamSequence + 1 = w₀.inner.expected := (publish_ok_iff.1 hr).2.1
    rw [hs₀.expected_eq hcap hgrest.1] at hseq
    exact (hcomplete.1 (by omega)).2
  · intro hall
    have hkept : w₀.published.length = w₀.streamSequence := hcomplete.2 ⟨rfl, hall⟩
    have hseq : w₀.streamSequence + 1 = w₀.inner.expected := by
      rw [hs₀.expected_eq hcap hgrest.1, hkept]
    refine ⟨⟨_, publish_ok_iff.2 ⟨hfits, hseq, rfl⟩⟩, ?_⟩
    obtain ⟨hframe, hreach⟩ := taken_step hcap hs₀ hfits hseq hpublish
    refine ⟨hframe, fun id hid hspares => ?_⟩
    have hnever : ∀ act ∈ post, act ≠ .send id false := fun act hact heq => hspares (heq ▸ hact)
    have hreached : Reaches id (w₀.nextFrame e payload) w :=
      Guarded.invariant (fun _ _ _ hok hr hstep => hr.step hok.2 hok.1 hstep) (hreach id hid)
        ((hgrest.2 w₁ hpublish).and_forall hnever) hpost
    rw [Reaches, inFlight_of_none hdone] at hreached
    exact hreached.2.resolve_right List.not_mem_nil

/-- Only the first frame is too large. -/
def firstTooLarge (frame : StreamFrame) : Option ℕ :=
  if frame.sequence = 1 then some 70000 else some 64

/-- The second of two fitting frames is taken. -/
theorem frame_taken_second : ∃ w₀ w₁,
    run (hubStep (fun _ => some 64) 2) {} [.publish 10 .heartbeat, .finish] = some w₀ ∧
      hubStep (fun _ => some 64) 2 w₀ (.publish 20 .heartbeat) = some w₁ ∧
      w₀.nextFrame 20 .heartbeat ∈ w₁.inner.frames := by
  have hg : Guarded (hubStep (fun _ => some 64) 2) Regular {}
      ([.publish 10 .heartbeat, .finish] ++ .publish 20 .heartbeat :: [.finish]) :=
    Guarded.of_decide (by decide)
  have hfits : Guarded (hubStep (fun _ => some 64) 2) (Fits fun _ => some 64) {}
      [.publish 10 .heartbeat, .finish] :=
    Guarded.of_decide (by decide)
  exact ⟨_, _, rfl, rfl,
    ((frame_taken_iff (by decide) hg rfl rfl rfl rfl (by decide)).2 hfits).2.1⟩

/-- After a frame that is too large the hub refuses the next one, which fits. -/
theorem frame_refused : ∃ w,
    run (hubStep firstTooLarge 1024) {} [.publish 10 .heartbeat] = some w ∧
      InLimit firstTooLarge (w.nextFrame 20 .heartbeat) ∧
      publish firstTooLarge 1024 w.inner (w.nextFrame 20 .heartbeat) =
        .error (.sequenceMismatch 1 2) :=
  ⟨_, rfl, by decide, rfl⟩

end Hub

end LlmNotch
