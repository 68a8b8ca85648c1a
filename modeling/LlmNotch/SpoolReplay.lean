import LlmNotch.IngestIsolation
import LlmNotch.IngestServer
import LlmNotch.SpoolDirectory
import LlmNotch.WireCodec

/-!
# The replay of the spool

When the host starts, `drain_spool` hands it the frames that hooks have left in the spool, in the
order of their names. It reads a frame, decodes it and normalizes it, puts it into the queue of the
host and waits for the answer. A frame that the host accepts in time is removed, and the next one
is read. Anything else ends the drain.

A `ReplayAct` is one step of the drain with what the file system, the queue and the host do in it.
`replay_ordered` : whatever they do, the drain hands over the frames in order, one after the other,
and removes exactly the frames that were accepted.

A frame that cannot be replayed ends the drain at every start, and the frames after it stay where
they are. `replays_all_iff` : a host that accepts everything gets every frame that can be replayed
exactly if no other frame comes before one of them. `heartbeat_blocks` : a hook can write a frame
that is not.
-/

namespace LlmNotch

namespace Ipc

namespace Spool

/-! ## Steps -/

/-- What the drain does, in order. -/
inductive ReplayEvent where
  | submitted (name : String) (normalized : NormalizedIngest)
  | accepted (name : String)
  | removed (name : String)

/-- What the drain does next. -/
inductive ReplayPhase where
  | starting
  | reading (rest : List String)
  | waiting (name : String) (rest : List String)
  | removing (name : String) (rest : List String)
  | ended

structure Replay where
  files : Dir
  phase : ReplayPhase
  log : List ReplayEvent

/-- The server starts. -/
def Replay.start (files : Dir) : Replay :=
  ⟨files, .starting, []⟩

inductive ReplayAct where
  | list (fault : Bool)
  /-- read the next frame and put its event into the queue, if there is room -/
  | submit (fault : Bool) (nowMs : ℤ) (uuid : ℕ) (queueRoom : Bool)
  /-- what is heard of the event within the wait -/
  | settle (outcome : HostOutcome)
  | remove (fault : Bool)

section

variable (stableId : AgentSource → String → String)
variable (fromStr : String → Except String WireMessage)

/-- The event of a frame. -/
def replayable (files : Dir) (name : String) (nowMs : ℤ) (uuid : ℕ) : Option NormalizedIngest := do
  let bytes ← files.lookup name
  match decodeFrame fromStr bytes with
  | .ok (.ingest _ _ payload) => (normalizeIngest stableId payload nowMs uuid).toOption
  | _ => none

def replayStep (s : Replay) : ReplayAct → Option Replay
  | .list fault =>
    match s.phase with
    | .starting =>
      some { s with phase := if fault then .ended else .reading (listFrames s.files) }
    | _ => none
  | .submit fault nowMs uuid queueRoom =>
    match s.phase with
    | .reading [] => some { s with phase := .ended }
    | .reading (name :: rest) =>
      match replayable stableId fromStr s.files name nowMs uuid with
      | some normalized =>
        if !fault && queueRoom then
          some { s with
            phase := .waiting name rest
            log := s.log ++ [.submitted name normalized] }
        else some { s with phase := .ended }
      | none => some { s with phase := .ended }
    | _ => none
  | .settle outcome =>
    match s.phase with
    | .waiting name rest =>
      if outcome = .accepted then
        some { s with phase := .removing name rest, log := s.log ++ [.accepted name] }
      else some { s with phase := .ended }
    | _ => none
  | .remove fault =>
    match s.phase with
    | .removing name rest =>
      if (s.files.lookup name).isSome && !fault then
        some { s with
          files := s.files.erase name
          phase := .reading rest
          log := s.log ++ [.removed name] }
      else some { s with phase := .ended }
    | _ => none

end

/-- The removal of the act does not fail. -/
def ReplayAct.Removes : ReplayAct → Prop
  | .remove fault => fault = false
  | _ => True

/-- The host accepts everything in time, its queue is never full, and no access of a file fails. -/
def ReplayAct.Cooperates : ReplayAct → Prop
  | .list fault => fault = false
  | .submit fault _ _ queueRoom => fault = false ∧ queueRoom = true
  | .settle outcome => outcome = .accepted
  | .remove fault => fault = false

theorem ReplayAct.Cooperates.removes {act : ReplayAct} (h : act.Cooperates) : act.Removes := by
  cases act
  case remove fault => exact h
  all_goals exact True.intro

/-- The frame was accepted and is about to be removed. -/
def ReplayPhase.isRemoving : ReplayPhase → Bool
  | .removing .. => true
  | _ => false

def ReplayEvent.submittedName : ReplayEvent → Option String
  | .submitted name _ => some name
  | _ => none

/-! ## What a drain has done -/

section

variable {stableId : AgentSource → String → String}
  {fromStr : String → Except String WireMessage} {files : Dir} {s t : Replay}

theorem nodup_listFrames (files : Dir) : (listFrames files).Nodup :=
  (List.perm_insertionSort _ _).nodup_iff.2 (files.keys_nodup.filter _)

/-- The frames of a listing are in strict order. -/
theorem strict_listFrames (files : Dir) : (listFrames files).Pairwise (· < ·) := by
  refine ((sorted_listFrames files).and (nodup_listFrames files)).imp fun h => ?_
  exact lt_of_le_of_ne h.1 h.2

theorem listFrames_congr {files' : Dir} (h : ∀ name, files.lookup name = files'.lookup name) :
    listFrames files = listFrames files' := by
  refine (strict_listFrames files).eq_of_mem_iff (strict_listFrames files') fun name => ?_
  rw [mem_listFrames, mem_listFrames, h]

/-- The frames that were handed over, accepted and removed. -/
def rounds (done : List (String × NormalizedIngest)) : List ReplayEvent :=
  done.flatMap fun p => [.submitted p.1 p.2, .accepted p.1, .removed p.1]

theorem rounds_snoc (done : List (String × NormalizedIngest)) (p : String × NormalizedIngest) :
    rounds (done ++ [p]) = rounds done ++ [.submitted p.1 p.2, .accepted p.1, .removed p.1] := by
  simp [rounds]

/-- The frame has this event. -/
def IsEventOf (stableId : AgentSource → String → String)
    (fromStr : String → Except String WireMessage) (files : Dir) (name : String)
    (normalized : NormalizedIngest) : Prop :=
  ∃ nowMs uuid, replayable stableId fromStr files name nowMs uuid = some normalized

/-- What has been done about the first of the frames that are left. `faulty` : a removal may have
failed. -/
inductive LastRound (stableId : AgentSource → String → String)
    (fromStr : String → Except String WireMessage) (files : Dir) (faulty : Prop) :
    ReplayPhase → List String → List ReplayEvent → Prop
  | reading (left) : LastRound stableId fromStr files faulty (.reading left) left []
  | waiting (name left normalized) : IsEventOf stableId fromStr files name normalized →
    LastRound stableId fromStr files faulty (.waiting name left) (name :: left)
      [.submitted name normalized]
  | removing (name left normalized) : IsEventOf stableId fromStr files name normalized →
    LastRound stableId fromStr files faulty (.removing name left) (name :: left)
      [.submitted name normalized, .accepted name]
  | unread (left) : LastRound stableId fromStr files faulty .ended left []
  | unaccepted (name left normalized) : IsEventOf stableId fromStr files name normalized →
    LastRound stableId fromStr files faulty .ended (name :: left) [.submitted name normalized]
  | unremoved (name left normalized) : faulty → IsEventOf stableId fromStr files name normalized →
    LastRound stableId fromStr files faulty .ended (name :: left)
      [.submitted name normalized, .accepted name]

/-- The drain of the files given, after it has listed them. -/
structure Replayed (stableId : AgentSource → String → String)
    (fromStr : String → Except String WireMessage) (files : Dir) (faulty : Prop)
    (done : List (String × NormalizedIngest)) (left : List String) (tail : List ReplayEvent)
    (s : Replay) : Prop where
  listed : listFrames files = done.map Prod.fst ++ left
  events : ∀ p ∈ done, IsEventOf stableId fromStr files p.1 p.2
  log : s.log = rounds done ++ tail
  last : LastRound stableId fromStr files faulty s.phase left tail
  kept : ∀ name, s.files.lookup name =
    if name ∈ done.map Prod.fst then none else files.lookup name

/-- It has not begun, or has done something about a front of the listing. -/
def Replays (stableId : AgentSource → String → String)
    (fromStr : String → Except String WireMessage) (files : Dir) (faulty : Prop) (s : Replay) :
    Prop :=
  s = .start files ∨ ∃ done left tail, Replayed stableId fromStr files faulty done left tail s

namespace Replayed

variable {faulty : Prop} {done : List (String × NormalizedIngest)} {left : List String}
  {tail : List ReplayEvent}

/-- The frame that is left first is still there. -/
theorem lookup_left {name : String} (h : Replayed stableId fromStr files faulty done left tail s)
    (hname : name ∈ left) : s.files.lookup name = files.lookup name := by
  have hnodup := nodup_listFrames files
  rw [h.listed] at hnodup
  rw [h.kept, if_neg fun hdone => List.disjoint_of_nodup_append hnodup hdone hname]

/-- The first frame that is left is there. -/
theorem lookup_isSome {name : String} {rest : List String}
    (h : Replayed stableId fromStr files faulty done (name :: rest) tail s) :
    (s.files.lookup name).isSome = true := by
  have hmem : name ∈ listFrames files := by simp [h.listed]
  rw [h.lookup_left (by simp)]
  exact (mem_listFrames.1 hmem).1

section

variable (h : Replayed stableId fromStr files faulty done left tail s)

include h

theorem replayable_left {name : String} {nowMs : ℤ} {uuid : ℕ} (hname : name ∈ left) :
    replayable stableId fromStr s.files name nowMs uuid =
      replayable stableId fromStr files name nowMs uuid := by
  rw [replayable, replayable, h.lookup_left hname]

/-- The drain ends. -/
theorem ends (hlast : LastRound stableId fromStr files faulty .ended left tail) :
    Replayed stableId fromStr files faulty done left tail { s with phase := .ended } :=
  ⟨h.listed, h.events, h.log, hlast, h.kept⟩

/-- One more event about the first frame. -/
theorem goesOn {phase : ReplayPhase} {event : ReplayEvent}
    (hlast : LastRound stableId fromStr files faulty phase left (tail ++ [event])) :
    Replayed stableId fromStr files faulty done left (tail ++ [event])
      { s with phase := phase, log := s.log ++ [event] } :=
  ⟨h.listed, h.events, by rw [h.log, List.append_assoc], hlast, h.kept⟩

end

end Replayed

section Phases

variable {faulty : Prop} {name : String} {rest : List String}

section

variable (hs : Replays stableId fromStr files faulty s)

include hs

theorem Replays.reading (hphase : s.phase = .reading rest) :
    ∃ done, Replayed stableId fromStr files faulty done rest [] s := by
  obtain rfl | ⟨done, left, tail, hs⟩ := hs
  · cases hphase
  · have hlast := hs.last
    rw [hphase] at hlast
    cases hlast
    exact ⟨done, hs⟩

theorem Replays.waiting (hphase : s.phase = .waiting name rest) :
    ∃ done normalized, IsEventOf stableId fromStr files name normalized ∧
      Replayed stableId fromStr files faulty done (name :: rest)
        [.submitted name normalized] s := by
  obtain rfl | ⟨done, left, tail, hs⟩ := hs
  · cases hphase
  · have hlast := hs.last
    rw [hphase] at hlast
    cases hlast with
    | waiting _ _ normalized hevent => exact ⟨done, normalized, hevent, hs⟩

theorem Replays.removing (hphase : s.phase = .removing name rest) :
    ∃ done normalized, IsEventOf stableId fromStr files name normalized ∧
      Replayed stableId fromStr files faulty done (name :: rest)
        [.submitted name normalized, .accepted name] s := by
  obtain rfl | ⟨done, left, tail, hs⟩ := hs
  · cases hphase
  · have hlast := hs.last
    rw [hphase] at hlast
    cases hlast with
    | removing _ _ normalized hevent => exact ⟨done, normalized, hevent, hs⟩

end

end Phases

variable {name : String} {normalized : NormalizedIngest} {acts : List ReplayAct}
  {left : List String}

/-- A removal that succeeds ends the round of the frame. -/
theorem Replayed.removed {faulty : Prop} {done : List (String × NormalizedIngest)}
    {rest : List String} (h : Replayed stableId fromStr files faulty done (name :: rest)
      [.submitted name normalized, .accepted name] s)
    (hevent : IsEventOf stableId fromStr files name normalized) :
    Replayed stableId fromStr files faulty (done ++ [(name, normalized)]) rest []
      { s with
        files := s.files.erase name
        phase := .reading rest
        log := s.log ++ [.removed name] } where
  listed := by rw [h.listed, List.map_append, List.append_assoc]; rfl
  events := by
    intro p hp
    obtain hp | hp := List.mem_append.1 hp
    · exact h.events p hp
    · obtain rfl := List.mem_singleton.1 hp
      exact hevent
  log := by rw [h.log, rounds_snoc]; simp
  last := .reading rest
  kept := by
    intro other
    rw [Dict.lookup_erase_ite, h.kept, List.map_append, List.map_singleton]
    by_cases hsame : other = name
    · simp [hsame]
    · have hmem : other ∈ done.map Prod.fst ++ [name] ↔ other ∈ done.map Prod.fst := by
        simp [hsame]
      simp only [hsame, if_false, hmem]

/-- Every step keeps what is known of the drain. -/
theorem replays_step {faulty : Prop} {act : ReplayAct} (hact : ¬act.Removes → faulty)
    (hs : Replays stableId fromStr files faulty s)
    (h : replayStep stableId fromStr s act = some t) :
    Replays stableId fromStr files faulty t := by
  cases act with
  | list fault =>
    obtain rfl | ⟨done, left, tail, hs⟩ := hs
    · cases h
      refine .inr ⟨[], listFrames files, [], rfl, by simp, rfl, ?_, by simp [Replay.start]⟩
      cases fault
      · exact .reading _
      · exact .unread _
    · have hlast := hs.last
      cases hphase : s.phase with
      | starting =>
        rw [hphase] at hlast
        cases hlast
      | reading | waiting | removing | ended => simp [replayStep, hphase] at h
  | submit fault nowMs uuid queueRoom =>
    cases hphase : s.phase with
    | reading rest =>
      obtain ⟨done, hs⟩ := hs.reading hphase
      cases rest with
      | nil =>
        simp only [replayStep, hphase, Option.some.injEq] at h
        subst h
        exact .inr ⟨done, [], [], hs.ends (.unread [])⟩
      | cons name rest =>
        have hended := hs.ends (.unread (name :: rest))
        have hsame : replayable stableId fromStr s.files name nowMs uuid =
            replayable stableId fromStr files name nowMs uuid := hs.replayable_left (by simp)
        simp only [replayStep, hphase] at h
        split at h
        next normalized hevent =>
          split at h
          · cases h
            exact .inr ⟨done, name :: rest, _, hs.goesOn (.waiting name rest normalized
              ⟨nowMs, uuid, hsame ▸ hevent⟩)⟩
          · cases h
            exact .inr ⟨done, _, _, hended⟩
        next =>
          cases h
          exact .inr ⟨done, _, _, hended⟩
    | starting | waiting | removing | ended => simp [replayStep, hphase] at h
  | settle outcome =>
    cases hphase : s.phase with
    | waiting name rest =>
      obtain ⟨done, normalized, hevent, hs⟩ := hs.waiting hphase
      simp only [replayStep, hphase] at h
      split at h
      · cases h
        exact .inr ⟨done, name :: rest, _, hs.goesOn (.removing name rest normalized hevent)⟩
      · cases h
        exact .inr ⟨done, _, _, hs.ends (.unaccepted name rest normalized hevent)⟩
    | starting | reading | removing | ended => simp [replayStep, hphase] at h
  | remove fault =>
    cases hphase : s.phase with
    | removing name rest =>
      obtain ⟨done, normalized, hevent, hs⟩ := hs.removing hphase
      simp only [replayStep, hphase] at h
      split at h
      · cases h
        exact .inr ⟨_, _, _, hs.removed hevent⟩
      next hfails =>
        cases h
        have hthere := hs.lookup_isSome
        have hfaulty : faulty := by
          refine hact fun hremoves => hfails ?_
          rw [hthere, show fault = false from hremoves]
          rfl
        exact .inr ⟨done, _, _, hs.ends (.unremoved name rest normalized hfaulty hevent)⟩
    | starting | reading | waiting | ended => simp [replayStep, hphase] at h

theorem replays_run {faulty : Prop} (hacts : ∀ act ∈ acts, ¬act.Removes → faulty)
    (hrun : run (replayStep stableId fromStr) (.start files) acts = some s) :
    Replays stableId fromStr files faulty s := by
  have hguarded := (Guarded.trivial (replayStep stableId fromStr) (.start files) acts).and_forall
    hacts
  exact hguarded.invariant (fun s act t hok hs h => replays_step hok.1 hs h) (.inl rfl) hrun

/-! ## What the log says -/

theorem names_rounds (done : List (String × NormalizedIngest)) :
    (rounds done).filterMap ReplayEvent.submittedName = done.map Prod.fst := by
  induction done with
  | nil => rfl
  | cons p done ih => simpa [rounds, List.filterMap_cons, ReplayEvent.submittedName] using ih

theorem accepted_mem_rounds {done : List (String × NormalizedIngest)} :
    .accepted name ∈ rounds done ↔ name ∈ done.map Prod.fst := by
  simp [rounds, eq_comm]

theorem submitted_mem_rounds {done : List (String × NormalizedIngest)} :
    .submitted name normalized ∈ rounds done ↔ (name, normalized) ∈ done := by
  simp [rounds, eq_comm]

/-- A frame was handed over at the start of its round. -/
theorem split_rounds {before after tail : List ReplayEvent}
    {done : List (String × NormalizedIngest)}
    (h : rounds done ++ tail = before ++ .submitted name normalized :: after) :
    (∃ first later, done = first ++ (name, normalized) :: later ∧ before = rounds first) ∨
      ∃ rest, before = rounds done ++ rest ∧
        tail = rest ++ .submitted name normalized :: after := by
  induction done generalizing before with
  | nil => exact .inr ⟨before, rfl, h⟩
  | cons p done ih =>
    match before with
    | [] =>
      simp only [rounds, List.flatMap_cons, List.cons_append, List.nil_append, List.cons.injEq,
        ReplayEvent.submitted.injEq] at h
      exact .inl ⟨[], done, by rw [← h.1.1, ← h.1.2]; rfl, rfl⟩
    | [a] => simp [rounds] at h
    | [a, b] => simp [rounds] at h
    | a :: b :: c :: before =>
      simp only [rounds, List.flatMap_cons, List.cons_append, List.nil_append,
        List.cons.injEq] at h
      obtain ⟨rfl, rfl, rfl, h⟩ := h
      obtain ⟨first, later, rfl, rfl⟩ | ⟨rest, rfl, rfl⟩ := ih h
      · exact .inl ⟨p :: first, later, rfl, rfl⟩
      · exact .inr ⟨rest, rfl, rfl⟩

section

variable {faulty : Prop} {done : List (String × NormalizedIngest)} {left : List String}
  {tail : List ReplayEvent}

variable {phase : ReplayPhase}

theorem LastRound.names (h : LastRound stableId fromStr files faulty phase left tail) :
    tail.filterMap ReplayEvent.submittedName <+: left := by
  cases h <;> simp [List.filterMap_cons, ReplayEvent.submittedName]

/-- Only the first frame that is left may have been handed over. -/
theorem LastRound.submitted {rest after : List ReplayEvent} {name : String}
    {normalized : NormalizedIngest} (h : LastRound stableId fromStr files faulty phase left tail)
    (htail : tail = rest ++ .submitted name normalized :: after) :
    rest = [] ∧ ∃ later, left = name :: later ∧
      IsEventOf stableId fromStr files name normalized := by
  cases rest with
  | nil =>
    cases h <;> cases htail
    all_goals exact ⟨rfl, _, rfl, by assumption⟩
  | cons e rest => cases h <;> cases rest <;> simp at htail

/-- If no removal fails, a frame that was accepted and not removed is about to be. -/
theorem LastRound.accepted {name : String}
    (h : LastRound stableId fromStr files False phase left tail)
    (hphase : phase.isRemoving = false) : .accepted name ∉ tail := by
  cases h with
  | reading | unread => simp
  | waiting | unaccepted => simp
  | removing => cases hphase
  | unremoved _ _ _ hfaulty => exact hfaulty.elim

end

namespace Replayed

variable {faulty : Prop} {done : List (String × NormalizedIngest)} {left : List String}
  {tail : List ReplayEvent}

/-- A frame is handed over after all frames before it were accepted. -/
theorem submitted {before after : List ReplayEvent} {name : String} {normalized : NormalizedIngest}
    (h : Replayed stableId fromStr files faulty done left tail s)
    (hlog : s.log = before ++ .submitted name normalized :: after) :
    IsEventOf stableId fromStr files name normalized ∧
      ∀ earlier ∈ listFrames files, earlier < name → .accepted earlier ∈ before := by
  have hstrict := strict_listFrames files
  have hlisted := h.listed
  rw [h.log] at hlog
  obtain ⟨first, rest, hfirst, hbefore, hevent⟩ : ∃ first rest,
      listFrames files = first.map Prod.fst ++ name :: rest ∧ before = rounds first ∧
        IsEventOf stableId fromStr files name normalized := by
    obtain ⟨first, later, rfl, rfl⟩ | ⟨rest, rfl, htail⟩ := split_rounds hlog
    · exact ⟨first, later.map Prod.fst ++ left, by simpa using hlisted, rfl,
        h.events (name, normalized) (by simp)⟩
    · obtain ⟨rfl, later, rfl, hevent⟩ := h.last.submitted htail
      exact ⟨done, later, hlisted, List.append_nil _, hevent⟩
  refine ⟨hevent, fun earlier hmem hlt => ?_⟩
  rw [hfirst] at hmem hstrict
  rw [hbefore, accepted_mem_rounds]
  obtain hmem | hmem := List.mem_append.1 hmem
  · exact hmem
  · obtain rfl | hmem := List.mem_cons.1 hmem
    · exact absurd hlt (lt_irrefl _)
    · have hafter := (List.pairwise_cons.1 (List.pairwise_append.1 hstrict).2.1).1 earlier hmem
      exact absurd hlt (lt_asymm hafter)

/-- The frames that are gone are those whose round is over. -/
theorem gone_iff {name : String} (h : Replayed stableId fromStr files faulty done left tail s)
    (hthere : (files.lookup name).isSome = true) :
    s.files.lookup name = none ↔ name ∈ done.map Prod.fst := by
  rw [h.kept]
  split
  next hdone => exact iff_of_true rfl hdone
  next hnot => exact iff_of_false (Option.isSome_iff_ne_none.1 hthere) hnot

theorem accepted_iff {name : String} (h : Replayed stableId fromStr files False done left tail s)
    (hphase : s.phase.isRemoving = false) :
    name ∈ done.map Prod.fst ↔
      (∃ normalized, .submitted name normalized ∈ s.log) ∧ .accepted name ∈ s.log := by
  rw [h.log]
  constructor
  · intro hdone
    obtain ⟨⟨_, normalized⟩, hp, rfl⟩ := List.mem_map.1 hdone
    exact ⟨⟨normalized, List.mem_append_left _ (submitted_mem_rounds.2 hp)⟩,
      List.mem_append_left _ (accepted_mem_rounds.2 hdone)⟩
  · rintro ⟨-, haccepted⟩
    obtain haccepted | haccepted := List.mem_append.1 haccepted
    · exact accepted_mem_rounds.1 haccepted
    · exact absurd haccepted (h.last.accepted hphase)

end Replayed

/-- For every content of the spool, and whatever the files, the queue and the host do : frames are
handed over in the order of their names, each one with its own event and after all frames before it
were accepted. If no removal fails, and apart from a frame that is just being removed, the frames
that are gone are those that were handed over and accepted. -/
theorem replay_ordered (files : Dir) {acts : List ReplayAct}
    (hrun : run (replayStep stableId fromStr) (.start files) acts = some s) :
    s.log.filterMap ReplayEvent.submittedName <+: listFrames files ∧
    (listFrames files).Pairwise (· < ·) ∧
    (∀ before name normalized after, s.log = before ++ .submitted name normalized :: after →
      IsEventOf stableId fromStr files name normalized ∧
      ∀ earlier ∈ listFrames files, earlier < name → .accepted earlier ∈ before) ∧
    ((∀ act ∈ acts, act.Removes) → s.phase.isRemoving = false → ∀ name,
      (files.lookup name).isSome = true →
        (s.files.lookup name = none ↔
          (∃ normalized, .submitted name normalized ∈ s.log) ∧ .accepted name ∈ s.log)) := by
  have hreplays : Replays stableId fromStr files True s :=
    replays_run (fun _ _ _ => True.intro) hrun
  refine ⟨?_, strict_listFrames files, ?_, ?_⟩
  · obtain rfl | ⟨done, left, tail, hs⟩ := hreplays
    · exact List.nil_prefix
    · rw [hs.log, List.filterMap_append, names_rounds, hs.listed]
      exact (List.prefix_append_right_inj _).2 hs.last.names
  · intro before name normalized after hlog
    obtain rfl | ⟨done, left, tail, hs⟩ := hreplays
    · simp [Replay.start] at hlog
    · exact hs.submitted hlog
  · intro hremoves hphase name hthere
    have hreplays : Replays stableId fromStr files False s :=
      replays_run (fun act hact hnot => hnot (hremoves act hact)) hrun
    obtain rfl | ⟨done, left, tail, hs⟩ := hreplays
    · simp [Replay.start, Option.isSome_iff_ne_none.1 hthere]
    · rw [hs.gone_iff hthere, hs.accepted_iff hphase]

/-! ## Frames that cannot be replayed -/

/-- The frame decodes as an event of a hook and is normalized. -/
def IsReplayable (stableId : AgentSource → String → String)
    (fromStr : String → Except String WireMessage) (files : Dir) (name : String) : Prop :=
  ∃ normalized, IsEventOf stableId fromStr files name normalized

section Clock

variable {payload : IngestPayload} {source : AgentSource} {nowMs : ℤ} {uuid : ℕ}

theorem buildSession_clock {session : AgentSession} (nowMs' : ℤ)
    (h : buildSession stableId payload source nowMs = .ok session) :
    ∃ session', buildSession stableId payload source nowMs' = .ok session' := by
  unfold buildSession at h ⊢
  cases htarget : payload.externalSessionId.or payload.sessionId with
  | none =>
    rw [htarget] at h
    cases h
  | some external => exact ⟨_, rfl⟩

theorem buildEvent_clock {name : String} {event : SessionEvent} (nowMs' : ℤ) (uuid' : ℕ)
    (h : buildEvent stableId payload source nowMs uuid name = .ok event) :
    ∃ event', buildEvent stableId payload source nowMs' uuid' name = .ok event' := by
  unfold buildEvent at h ⊢
  obtain ⟨id, hid, h⟩ := except_bind_ok h
  obtain ⟨kind, hkind, -⟩ := except_bind_ok h
  rw [hid, hkind]
  exact ⟨_, rfl⟩

/-- Whether a payload is normalized does not depend on the clock. -/
theorem normalizeIngest_clock {normalized : NormalizedIngest} (nowMs' : ℤ) (uuid' : ℕ)
    (h : normalizeIngest stableId payload nowMs uuid = .ok normalized) :
    ∃ normalized', normalizeIngest stableId payload nowMs' uuid' = .ok normalized' := by
  unfold normalizeIngest at h ⊢
  obtain ⟨source, hsource, h⟩ := except_bind_ok h
  simp only [hsource, bind, Except.bind] at h ⊢
  revert h
  split
  · intro h
    obtain ⟨id, hid, -⟩ := except_bind_ok h
    rw [hid]
    exact ⟨_, rfl⟩
  · intro h
    obtain ⟨event, hevent, -⟩ := except_bind_ok h
    obtain ⟨event', hevent'⟩ := buildEvent_clock nowMs' uuid' hevent
    rw [hevent']
    exact ⟨_, rfl⟩
  · intro h
    obtain ⟨session, hsession, -⟩ := except_bind_ok h
    obtain ⟨session', hsession'⟩ := buildSession_clock nowMs' hsession
    rw [hsession']
    exact ⟨_, rfl⟩
  · intro h
    obtain ⟨session, hsession, -⟩ := except_bind_ok h
    obtain ⟨session', hsession'⟩ := buildSession_clock nowMs' hsession
    rw [hsession']
    exact ⟨_, rfl⟩
  · intro h
    cases h

end Clock

theorem toOption_eq_some {ε α : Type} {x : Except ε α} {a : α} :
    x.toOption = some a ↔ x = .ok a := by
  cases x <;> simp [Except.toOption]

theorem replayable_eq {requestId : String} {bytes : List UInt8} {v : UInt16}
    {payload : IngestPayload} {nowMs : ℤ} {uuid : ℕ} (hfile : files.lookup name = some bytes)
    (hdecode : decodeFrame fromStr bytes = .ok (.ingest v requestId payload)) :
    replayable stableId fromStr files name nowMs uuid =
      (normalizeIngest stableId payload nowMs uuid).toOption := by
  simp only [replayable, hfile, Option.bind_eq_bind, Option.bind_some, hdecode]

/-- It can be replayed at any time. -/
theorem IsReplayable.always (h : IsReplayable stableId fromStr files name) (nowMs : ℤ) (uuid : ℕ) :
    ∃ normalized, replayable stableId fromStr files name nowMs uuid = some normalized := by
  obtain ⟨normalized, nowMs', uuid', h⟩ := h
  unfold replayable at h ⊢
  obtain ⟨bytes, hbytes, h⟩ := Option.bind_eq_some_iff.1 h
  rw [hbytes]
  show ∃ normalized, (match decodeFrame fromStr bytes with
    | .ok (.ingest _ _ payload) => (normalizeIngest stableId payload nowMs uuid).toOption
    | _ => none) = some normalized
  revert h
  split
  · intro h
    obtain ⟨normalized', h⟩ := normalizeIngest_clock nowMs uuid (toOption_eq_some.1 h)
    exact ⟨normalized', toOption_eq_some.2 h⟩
  · intro h
    cases h

/-- The files that are left are listed again. -/
theorem Replayed.listFrames_eq {faulty : Prop} {done : List (String × NormalizedIngest)}
    {tail : List ReplayEvent} (h : Replayed stableId fromStr files faulty done left tail s) :
    listFrames s.files = left := by
  have hstrict := strict_listFrames files
  have hnodup := nodup_listFrames files
  rw [h.listed] at hstrict hnodup
  refine (strict_listFrames s.files).eq_of_mem_iff (List.pairwise_append.1 hstrict).2.1 ?_
  intro name
  have hmem : name ∈ listFrames files ↔ name ∈ done.map Prod.fst ∨ name ∈ left := by
    rw [h.listed, List.mem_append]
  rw [mem_listFrames] at hmem ⊢
  rw [h.kept]
  split
  next hdone =>
    refine iff_of_false (by simp) fun hleft => ?_
    exact List.disjoint_of_nodup_append hnodup hdone hleft
  next hnot =>
    rw [hmem]
    exact or_iff_right hnot

theorem Replayed.isReplayable_left {faulty : Prop} {done : List (String × NormalizedIngest)}
    {tail : List ReplayEvent} (h : Replayed stableId fromStr files faulty done left tail s)
    (hname : name ∈ left) :
    IsReplayable stableId fromStr s.files name ↔ IsReplayable stableId fromStr files name := by
  simp only [IsReplayable, IsEventOf, h.replayable_left hname]

/-- With a host that accepts everything the drain ends at a frame that cannot be replayed. -/
def EndsAtBad (stableId : AgentSource → String → String)
    (fromStr : String → Except String WireMessage) (s : Replay) : Prop :=
  s.phase = .ended → ∀ name rest, listFrames s.files = name :: rest →
    ¬IsReplayable stableId fromStr s.files name

theorem endsAtBad_step {act : ReplayAct} (hact : act.Cooperates)
    (hs : Replays stableId fromStr files False s)
    (h : replayStep stableId fromStr s act = some t) : EndsAtBad stableId fromStr t := by
  cases act with
  | list fault =>
    obtain rfl : fault = false := hact
    cases hphase : s.phase with
    | starting =>
      simp only [replayStep, hphase, Bool.false_eq_true, if_false, Option.some.injEq] at h
      subst h
      intro hended
      cases hended
    | reading | waiting | removing | ended => simp [replayStep, hphase] at h
  | submit fault nowMs uuid queueRoom =>
    obtain ⟨rfl, rfl⟩ := hact
    cases hphase : s.phase with
    | reading rest =>
      obtain ⟨done, hs⟩ := hs.reading hphase
      have hlist := hs.listFrames_eq
      cases rest with
      | nil =>
        simp only [replayStep, hphase, Option.some.injEq] at h
        subst h
        intro _ name rest heq
        rw [hlist] at heq
        cases heq
      | cons name rest =>
        simp only [replayStep, hphase, Bool.not_false, Bool.and_self, if_true] at h
        split at h
        next =>
          cases h
          intro hended
          cases hended
        next hnone =>
          cases h
          intro _ other rest' heq hgood
          obtain ⟨rfl, rfl⟩ := List.cons.inj (hlist.symm.trans heq)
          obtain ⟨normalized, hsome⟩ := hgood.always nowMs uuid
          rw [hnone] at hsome
          cases hsome
    | starting | waiting | removing | ended => simp [replayStep, hphase] at h
  | settle outcome =>
    obtain rfl : outcome = .accepted := hact
    cases hphase : s.phase with
    | waiting name rest =>
      simp only [replayStep, hphase, if_true, Option.some.injEq] at h
      subst h
      intro hended
      cases hended
    | starting | reading | removing | ended => simp [replayStep, hphase] at h
  | remove fault =>
    obtain rfl : fault = false := hact
    cases hphase : s.phase with
    | removing name rest =>
      obtain ⟨done, normalized, hevent, hs⟩ := hs.removing hphase
      have hthere := hs.lookup_isSome
      simp only [replayStep, hphase, hthere, Bool.not_false, Bool.and_self, if_true,
        Option.some.injEq] at h
      subst h
      intro hended
      cases hended
    | starting | reading | waiting | ended => simp [replayStep, hphase] at h

/-- The invariants of a run with such a host. -/
theorem endsAtBad_run (hacts : ∀ act ∈ acts, act.Cooperates)
    (hrun : run (replayStep stableId fromStr) (.start files) acts = some s) :
    Replays stableId fromStr files False s ∧ EndsAtBad stableId fromStr s := by
  have hguarded := (Guarded.trivial (replayStep stableId fromStr) (.start files) acts).and_forall
    hacts
  have hstart : EndsAtBad stableId fromStr (.start files) := fun hended => by cases hended
  refine hguarded.invariant (I := fun s => Replays stableId fromStr files False s ∧
    EndsAtBad stableId fromStr s) ?_ ⟨.inl rfl, hstart⟩ hrun
  rintro s act t ⟨hact, -⟩ ⟨hs, -⟩ h
  exact ⟨replays_step (fun hnot => hnot hact.removes) hs h, endsAtBad_step hact hs h⟩

/-- From every listing the drain comes to its end. -/
theorem exists_drain (rest : List String) {s : Replay} (hphase : s.phase = .reading rest) :
    ∃ acts t, run (replayStep stableId fromStr) s acts = some t ∧
      (∀ act ∈ acts, act.Cooperates) ∧ t.phase = .ended := by
  induction rest generalizing s with
  | nil => exact ⟨[.submit false 0 0 true], { s with phase := .ended },
      by simp [run, replayStep, hphase], by simp [ReplayAct.Cooperates], rfl⟩
  | cons name rest ih =>
    cases hevent : replayable stableId fromStr s.files name 0 0 with
    | none => exact ⟨[.submit false 0 0 true], { s with phase := .ended },
        by simp [run, replayStep, hphase, hevent], by simp [ReplayAct.Cooperates], rfl⟩
    | some normalized =>
      have hthere : (s.files.lookup name).isSome = true := by
        obtain ⟨bytes, hbytes, -⟩ := Option.bind_eq_some_iff.1 hevent
        rw [hbytes]
        rfl
      obtain ⟨acts, t, hrun, hacts, hended⟩ := ih (s := ⟨s.files.erase name, .reading rest,
        s.log ++ [.submitted name normalized] ++ [.accepted name] ++ [.removed name]⟩) rfl
      refine ⟨[.submit false 0 0 true, .settle .accepted, .remove false] ++ acts, t, ?_, ?_, hended⟩
      · exact run_append.2 ⟨_, by simp [run, replayStep, hphase, hevent, hthere], hrun⟩
      · simpa [ReplayAct.Cooperates] using hacts

theorem LastRound.replayable {faulty : Prop} {phase : ReplayPhase} {tail : List ReplayEvent}
    (h : LastRound stableId fromStr files faulty phase left tail)
    (haccepted : .accepted name ∈ tail) : IsReplayable stableId fromStr files name := by
  cases h with
  | reading | unread | waiting | unaccepted => simp at haccepted
  | removing _ _ normalized hevent | unremoved _ _ normalized _ hevent =>
    simp only [List.mem_cons, reduceCtorEq, false_or, List.not_mem_nil, or_false,
      ReplayEvent.accepted.injEq] at haccepted
    exact haccepted ▸ ⟨normalized, hevent⟩

/-- An accepted frame had an event. -/
theorem Replayed.accepted {faulty : Prop} {done : List (String × NormalizedIngest)}
    {tail : List ReplayEvent} (h : Replayed stableId fromStr files faulty done left tail s)
    (haccepted : .accepted name ∈ s.log) : IsReplayable stableId fromStr files name := by
  rw [h.log] at haccepted
  obtain haccepted | haccepted := List.mem_append.1 haccepted
  · obtain ⟨p, hp, rfl⟩ := List.mem_map.1 (accepted_mem_rounds.1 haccepted)
    exact ⟨p.2, h.events p hp⟩
  · exact h.last.replayable haccepted

/-- A frame that cannot be replayed comes before one that can. -/
def Blocks (stableId : AgentSource → String → String)
    (fromStr : String → Except String WireMessage) (files : Dir) (bad good : String) : Prop :=
  bad ∈ listFrames files ∧ good ∈ listFrames files ∧ bad < good ∧
    ¬IsReplayable stableId fromStr files bad ∧ IsReplayable stableId fromStr files good

/-- The drain of a host that accepts everything ends. It hands over every frame that can be
replayed exactly if no frame that cannot comes before one of them. -/
theorem replays_all_iff (stableId : AgentSource → String → String)
    (fromStr : String → Except String WireMessage) (files : Dir) :
    (∃ acts t, run (replayStep stableId fromStr) (.start files) acts = some t ∧
      (∀ act ∈ acts, act.Cooperates) ∧ t.phase = .ended) ∧
    ∀ acts t, run (replayStep stableId fromStr) (.start files) acts = some t →
      (∀ act ∈ acts, act.Cooperates) → t.phase = .ended →
        ((∀ name ∈ listFrames files, IsReplayable stableId fromStr files name →
            ∃ normalized, .submitted name normalized ∈ t.log) ↔
          ∀ bad good, ¬Blocks stableId fromStr files bad good) := by
  refine ⟨?_, fun acts t hrun hacts hended => ⟨fun hall bad good hblocks => ?_, fun hnone => ?_⟩⟩
  · obtain ⟨acts, t, hrun, hacts, hended⟩ :=
      @exists_drain stableId fromStr (listFrames files) ⟨files, .reading (listFrames files), []⟩ rfl
    exact ⟨.list false :: acts, t, run_cons.2 ⟨_, rfl, hrun⟩, by simpa [ReplayAct.Cooperates],
      hended⟩
  · obtain ⟨hbad, hgood, hlt, hnot, hreplayable⟩ := hblocks
    obtain ⟨normalized, hsubmitted⟩ := hall good hgood hreplayable
    obtain ⟨before, after, hlog⟩ := List.append_of_mem hsubmitted
    obtain rfl | ⟨done, left, tail, hs⟩ := (endsAtBad_run hacts hrun).1
    · cases hended
    · refine hnot (hs.accepted ?_)
      rw [hlog]
      exact List.mem_append_left _ ((hs.submitted hlog).2 bad hbad hlt)
  · intro name hname hgood
    obtain ⟨hreplays, hends⟩ := endsAtBad_run hacts hrun
    obtain rfl | ⟨done, left, tail, hs⟩ := hreplays
    · cases hended
    · have hmem := hname
      rw [hs.listed] at hmem
      obtain hdone | hleft := List.mem_append.1 hmem
      · obtain ⟨p, hp, rfl⟩ := List.mem_map.1 hdone
        refine ⟨p.2, ?_⟩
        rw [hs.log]
        exact List.mem_append_left _ (submitted_mem_rounds.2 hp)
      · obtain ⟨first, rest, rfl⟩ := List.exists_cons_of_ne_nil (List.ne_nil_of_mem hleft)
        have hbad : ¬IsReplayable stableId fromStr files first := fun hfirst =>
          hends hended first rest hs.listFrames_eq ((hs.isReplayable_left (by simp)).2 hfirst)
        have hstrict := strict_listFrames files
        rw [hs.listed] at hstrict
        obtain rfl | hlater := List.mem_cons.1 hleft
        · exact absurd hgood hbad
        · have hlt := (List.pairwise_cons.1 (List.pairwise_append.1 hstrict).2.1).1 name hlater
          have hfirst : first ∈ listFrames files := by simp [hs.listed]
          exact absurd ⟨hfirst, hname, hlt, hbad, hgood⟩ (hnone first name)

/-- A drain that lists a frame first that cannot be replayed leaves everything as it is, whatever
the host does. -/
theorem replay_blocked {bad : String} {rest : List String} (hfirst : listFrames files = bad :: rest)
    (hbad : ¬IsReplayable stableId fromStr files bad)
    (hrun : run (replayStep stableId fromStr) (.start files) acts = some s) :
    (∀ name, s.files.lookup name = files.lookup name) ∧
      ∀ name normalized, .submitted name normalized ∉ s.log := by
  have hreplays : Replays stableId fromStr files True s :=
    replays_run (fun _ _ _ => True.intro) hrun
  obtain rfl | ⟨done, left, tail, hs⟩ := hreplays
  · exact ⟨fun _ => rfl, by simp [Replay.start]⟩
  · have hlisted := hs.listed
    rw [hfirst] at hlisted
    cases done with
    | nil =>
      refine ⟨fun name => by simpa using hs.kept name, fun name normalized hmem => ?_⟩
      rw [hs.log] at hmem
      obtain ⟨before, after, htail⟩ := List.append_of_mem (show _ ∈ tail from hmem)
      obtain ⟨-, later, rfl, hevent⟩ := hs.last.submitted htail
      obtain ⟨rfl, -⟩ := List.cons.inj hlisted
      exact hbad ⟨normalized, hevent⟩
    | cons p done =>
      obtain ⟨rfl, -⟩ := List.cons.inj hlisted
      exact absurd ⟨p.2, hs.events p (by simp)⟩ hbad

end

/-! ## Sample drains -/

section Samples

/-- A hook reports an event the host does not know. -/
def heartbeatMessage : WireMessage :=
  .ingest ipcWireVersion "r1" (Host.samplePayload "cursor" "heartbeat" none (some "s1"))

/-- A session starts. -/
def startMessage : WireMessage :=
  .ingest ipcWireVersion "r2" (Host.samplePayload "cursor" "sessionStart" none (some "s1"))

/-- A reader of the two messages. -/
def hookFromStr (text : String) : Except String WireMessage :=
  if text = startMessage.toJson.text then .ok startMessage
  else if text = heartbeatMessage.toJson.text then .ok heartbeatMessage
  else .error "expected value at line 1 column 1"

/-- The hooks that write them, one after the other. -/
def heartbeatCall : Call :=
  ⟨heartbeatMessage, 1700000000000, 1, 0, "6f1c9e52-5f0e-4b5a-9f43-0d5f0f6a1c01"⟩

def startCall : Call :=
  ⟨startMessage, 1700000001000, 2, 0, "b6a1a7c4-93d7-4c0e-8f11-7d1f5f3c2e02"⟩

/-- The frame of the session. -/
def startDir : Dir :=
  AList.insert startCall.finalPath (frameOf startMessage) ∅

/-- Both frames. -/
def heartbeatDir : Dir :=
  startDir.insert heartbeatCall.finalPath (frameOf heartbeatMessage)

/-- The session was started a second earlier, too. -/
def earlierCall : Call :=
  { startCall with nowMs := 1700000000000 }

def twoStarts : Dir :=
  startDir.insert earlierCall.finalPath (frameOf startMessage)

theorem decodes_start : decodeFrame hookFromStr (frameOf startMessage) = .ok startMessage :=
  decode_frameOf (travels_iff_valid.2 (by decide)) (parseBody_body (if_pos rfl))

theorem decodes_heartbeat :
    decodeFrame hookFromStr (frameOf heartbeatMessage) = .ok heartbeatMessage := by
  have hne : heartbeatMessage.toJson.text ≠ startMessage.toJson.text := by decide
  exact decode_frameOf (travels_iff_valid.2 (by decide))
    (parseBody_body ((if_neg hne).trans (if_pos rfl)))

theorem listFrames_startDir : listFrames startDir = [startCall.finalPath] := by
  refine (strict_listFrames _).eq_of_mem_iff (List.pairwise_singleton _ _) fun name => ?_
  rw [mem_listFrames, startDir, Dict.lookup_insert_ite, List.mem_singleton]
  constructor
  · rintro ⟨hthere, -⟩
    by_contra hne
    simp [hne] at hthere
  · rintro rfl
    simp [hasFrameExtension_finalPath]

theorem listFrames_insert {call : Call} (hlt : call.finalPath < startCall.finalPath)
    (bytes : List UInt8) :
    listFrames (startDir.insert call.finalPath bytes) =
      [call.finalPath, startCall.finalPath] := by
  refine (strict_listFrames _).eq_of_mem_iff (by simpa using hlt) fun name => ?_
  have hmem : name ∈ listFrames startDir ↔ name = startCall.finalPath := by
    simp [listFrames_startDir]
  rw [mem_listFrames] at hmem
  rw [mem_listFrames, Dict.lookup_insert_ite]
  by_cases hname : name = call.finalPath
  · simp [hname, hasFrameExtension_finalPath]
  · simp [hname, hmem]

theorem heartbeat_first : heartbeatCall.finalPath < startCall.finalPath := by
  show heartbeatCall.finalPath.toList < startCall.finalPath.toList
  rw [toList_finalPath, toList_finalPath]
  decide

theorem earlier_first : earlierCall.finalPath < startCall.finalPath := by
  show earlierCall.finalPath.toList < startCall.finalPath.toList
  rw [toList_finalPath, toList_finalPath]
  decide

theorem listFrames_heartbeatDir :
    listFrames heartbeatDir = [heartbeatCall.finalPath, startCall.finalPath] :=
  listFrames_insert heartbeat_first _

theorem replayable_start {files : Dir} {name : String} (nowMs : ℤ) (uuid : ℕ)
    (hfile : files.lookup name = some (frameOf startMessage)) :
    ∃ normalized, replayable externalKey hookFromStr files name nowMs uuid = some normalized := by
  rw [replayable_eq hfile decodes_start]
  exact ⟨_, rfl⟩

theorem not_replayable_heartbeat {files : Dir}
    (hfile : files.lookup heartbeatCall.finalPath = some (frameOf heartbeatMessage)) :
    ¬IsReplayable externalKey hookFromStr files heartbeatCall.finalPath := by
  rintro ⟨normalized, nowMs, uuid, h⟩
  rw [replayable_eq hfile decodes_heartbeat] at h
  cases h

/-- The host accepts both sessions. -/
def acceptedDrain : List ReplayAct :=
  [.list false, .submit false 0 0 true, .settle .accepted, .remove false, .submit false 0 0 true,
    .settle .accepted, .remove false, .submit false 0 0 true]

theorem replay_ordered_twoStarts : ∃ s,
    run (replayStep externalKey hookFromStr) (.start twoStarts) acceptedDrain = some s ∧
    s.phase = .ended ∧ s.files.lookup earlierCall.finalPath = none ∧
    s.files.lookup startCall.finalPath = none := by
  have hne : startCall.finalPath ≠ earlierCall.finalPath := earlier_first.ne'
  have hfirst : twoStarts.lookup earlierCall.finalPath = some (frameOf startMessage) := by
    exact AList.lookup_insert _
  have hsecond : twoStarts.lookup startCall.finalPath = some (frameOf startMessage) := by
    rw [twoStarts, Dict.lookup_insert_ite, if_neg hne]
    exact AList.lookup_insert _
  have hlater : (twoStarts.erase earlierCall.finalPath).lookup startCall.finalPath =
      some (frameOf startMessage) := (AList.lookup_erase_ne hne).trans hsecond
  obtain ⟨normalized, hevent⟩ := replayable_start 0 0 hfirst
  obtain ⟨normalized', hevent'⟩ := replayable_start 0 0 hlater
  have hlist : listFrames twoStarts = [earlierCall.finalPath, startCall.finalPath] :=
    listFrames_insert earlier_first _
  have hrun : run (replayStep externalKey hookFromStr) (.start twoStarts) acceptedDrain =
      some ⟨(twoStarts.erase earlierCall.finalPath).erase startCall.finalPath, .ended,
        [.submitted earlierCall.finalPath normalized, .accepted earlierCall.finalPath,
          .removed earlierCall.finalPath, .submitted startCall.finalPath normalized',
          .accepted startCall.finalPath, .removed startCall.finalPath]⟩ := by
    simp [run, acceptedDrain, replayStep, Replay.start, hlist, hevent, hevent', hfirst, hlater]
  obtain ⟨-, -, -, hgone⟩ := replay_ordered twoStarts hrun
  have hremoves : ∀ act ∈ acceptedDrain, act.Removes := by
    simp [acceptedDrain, ReplayAct.Removes]
  refine ⟨_, hrun, rfl, (hgone hremoves rfl _ (by simp [hfirst])).2 ⟨⟨normalized, by simp⟩, by simp⟩,
    (hgone hremoves rfl _ (by simp [hsecond])).2 ⟨⟨normalized', by simp⟩, by simp⟩⟩

/-- The frame of the unknown event was written by a hook. No drain at any start, of a host that
accepts everything or of any other, hands over the session behind it, or removes a frame. -/
theorem heartbeat_blocks :
    encodeMessage heartbeatMessage = .ok (frameOf heartbeatMessage) ∧
    Blocks externalKey hookFromStr heartbeatDir heartbeatCall.finalPath startCall.finalPath ∧
    ∀ files : Dir, (∀ name, files.lookup name = heartbeatDir.lookup name) → ∀ acts s,
      run (replayStep externalKey hookFromStr) (.start files) acts = some s →
        (∀ name, s.files.lookup name = heartbeatDir.lookup name) ∧
        ∀ normalized, .submitted startCall.finalPath normalized ∉ s.log := by
  have hbadFile : heartbeatDir.lookup heartbeatCall.finalPath =
      some (frameOf heartbeatMessage) := AList.lookup_insert _
  have hlt := heartbeat_first
  have hgoodFile : heartbeatDir.lookup startCall.finalPath = some (frameOf startMessage) := by
    rw [heartbeatDir, Dict.lookup_insert_ite, if_neg hlt.ne']
    exact AList.lookup_insert _
  refine ⟨encode_of_travels (travels_iff_valid.2 (by decide)), ?_, ?_⟩
  · refine ⟨?_, ?_, hlt, not_replayable_heartbeat hbadFile, ?_⟩
    · simp [listFrames_heartbeatDir]
    · simp [listFrames_heartbeatDir]
    · obtain ⟨normalized, h⟩ := replayable_start 0 0 hgoodFile
      exact ⟨normalized, 0, 0, h⟩
  · intro files hsame acts s hrun
    have hlist := (listFrames_congr hsame).trans listFrames_heartbeatDir
    have hbad := not_replayable_heartbeat ((hsame _).trans hbadFile)
    obtain ⟨hfiles, hlog⟩ := replay_blocked hlist hbad hrun
    exact ⟨fun name => (hfiles name).trans (hsame name), hlog startCall.finalPath⟩

end Samples

end Spool

end Ipc

end LlmNotch
