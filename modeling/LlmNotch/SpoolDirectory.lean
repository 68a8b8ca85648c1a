import LlmNotch.FilePaths
import LlmNotch.RelayLoop
import LlmNotch.Dict
import LlmNotch.Wire

/-!
# Many hooks and one spool directory

`spool_message` keeps the spool below its limits and then adds a frame : it lists the
directory, adds up the sizes of the files and removes the first one, again and again until the
limits hold, and writes the frame to a temporary file that it renames. Any number of hooks do
this at the same time, while the host drains the directory. One `SpoolAct` is one access of the
file system by one of them.

Every call ends : the work that is left (`SpoolState.work`) gets less with every step of a call.
A call loses its event if a file it is about to remove or has just renamed is gone. If that
never happens, the frame is there when the call returns, or was drained or evicted, and
`spool_keeps_event` says that this is the only way to lose it. `two_hooks_lose_event` : two
hooks that find the spool full remove the same file.
-/

namespace LlmNotch

namespace Ipc

namespace Spool

open Files (Platform)

/-! ## Frames -/

def maxSpoolFiles : ℕ := 1000
def maxSpoolBytes : ℕ := 10 * 1024 * 1024

/-- The error of an access to a file that is gone. -/
def notFound : IpcError :=
  .io "No such file or directory (os error 2)"

/-- A call of `spool_message`, with the clocks, the counter and the identifier it reads. -/
structure Call where
  message : WireMessage
  nowMs : ℤ
  tieBreaker : ℕ
  counter : ℕ
  id : String

/-- `{:020}`. -/
def padded (n : ℕ) : List Char :=
  List.replicate (20 - (Nat.toDigits 10 n).length) '0' ++ Nat.toDigits 10 n

namespace Call

def occurredAtMs (call : Call) : ℕ :=
  Int.toNat <| match call.message with
    | .ingest _ _ payload => (payload.occurredAtMs.map Int64.toInt).getD call.nowMs
    | _ => call.nowMs

def stem (call : Call) : List Char :=
  padded call.occurredAtMs ++ ['-'] ++ padded call.tieBreaker ++ ['-'] ++ padded call.counter ++
    ['-'] ++ call.id.toList

def tmp (call : Call) : String :=
  String.ofList (call.stem ++ ".tmp".toList)

def finalPath (call : Call) : String :=
  String.ofList (call.stem ++ ".frame".toList)

end Call

/-- The files of the directory. -/
abbrev Dir := Dict String (List UInt8)

/-- The frames in the order of their names. -/
def listFrames (files : Dir) : List String :=
  (files.keys.filter Relay.hasFrameExtension).insertionSort (· ≤ ·)

/-! ## Steps -/

/-- What a call does next. `listed` is its last listing of the directory. -/
inductive Phase where
  | listing
  | sizing (listed rest : List String) (total : ℕ)
  | evicting (oldest : String) (listed : List String)
  | writing
  | hardeningTmp
  | movingTmp
  | hardening
  | done (result : Except IpcError String)

/-- How a frame left the directory. -/
inductive Removal where
  | drained (name : String) (bytes : List UInt8)
  | evicted (call : ℕ) (listed : List String) (bytes : List UInt8)

/-- Evict the first file, if there is one. -/
def evictFirst : List String → Phase
  | [] => .writing
  | oldest :: rest => .evicting oldest (oldest :: rest)

/-- `harden_file` succeeds. -/
def hardens (platform : Platform) (files : Dir) (name : String) : Bool :=
  match platform with
  | .unix => (files.lookup name).isSome
  | .windows => true

section Step

variable (platform : Platform)

/-- One step of call `i` : its next phase, the directory, and what was removed. -/
def Call.step (call : Call) (i : ℕ) (files : Dir) : Phase → Option (Phase × Dir × List Removal)
  | .listing =>
    let listed := listFrames files
    some (if listed.length < maxSpoolFiles then .sizing listed listed 0 else evictFirst listed,
      files, [])
  | .sizing listed (name :: rest) total =>
    some (.sizing listed rest (total + (files.lookup name).elim 0 List.length), files, [])
  | .sizing listed [] total =>
    some (if total < maxSpoolBytes then .writing else evictFirst listed, files, [])
  | .evicting oldest listed =>
    match files.lookup oldest with
    | some bytes => some (.listing, files.erase oldest, [.evicted i listed bytes])
    | none => some (.done (.error notFound), files, [])
  | .writing =>
    match encodeMessage call.message with
    | .ok frame => some (.hardeningTmp, files.insert call.tmp frame, [])
    | .error e => some (.done (.error e), files, [])
  | .hardeningTmp =>
    some (if hardens platform files call.tmp then .movingTmp else .done (.error notFound),
      files, [])
  | .movingTmp =>
    match files.lookup call.tmp with
    | some frame => some (.hardening, (files.erase call.tmp).insert call.finalPath frame, [])
    | none => some (.done (.error notFound), files, [])
  | .hardening =>
    some (.done (if hardens platform files call.finalPath then .ok call.finalPath
      else .error notFound), files, [])
  | .done _ => none

/-- What the drain does next. -/
inductive Drain where
  | idle
  | reading (rest : List String)
  | waiting (name : String) (rest : List String)
  | removing (name : String) (rest : List String)

/-- The files of the spool, the calls that run, the drain and the removals so far. -/
structure SpoolState where
  files : Dir
  calls : List (Call × Phase)
  drain : Drain := .idle
  log : List Removal := []

inductive SpoolAct where
  /-- the next step of a call -/
  | call (i : ℕ)
  | startDrain
  /-- read a frame; one that cannot be decoded or queued ends the drain -/
  | read (usable : Bool)
  /-- the host accepts the event, or does not in time -/
  | settle (accepted : Bool)
  | remove
  | stopDrain

def SpoolAct.isCall : SpoolAct → Bool
  | .call _ => true
  | _ => false

/-- One step of a call or of the drain. -/
def spoolStep (s : SpoolState) : SpoolAct → Option SpoolState
  | .call i => do
    let (call, phase) ← s.calls[i]?
    let (phase, files, removed) ← call.step platform i s.files phase
    some { s with
      files := files
      calls := s.calls.set i (call, phase)
      log := s.log ++ removed }
  | .startDrain =>
    match s.drain with
    | .idle => some { s with drain := .reading (listFrames s.files) }
    | _ => none
  | .read usable =>
    match s.drain with
    | .reading (name :: rest) =>
      some { s with
        drain := if (s.files.lookup name).isSome && usable then .waiting name rest else .idle }
    | _ => none
  | .settle accepted =>
    match s.drain with
    | .waiting name rest =>
      some { s with drain := if accepted then .removing name rest else .idle }
    | _ => none
  | .remove =>
    match s.drain with
    | .removing name rest =>
      match s.files.lookup name with
      | some bytes =>
        some { s with
          files := s.files.erase name
          drain := .reading rest
          log := s.log ++ [.drained name bytes] }
      | none => some { s with drain := .idle }
    | _ => none
  | .stopDrain => some { s with drain := .idle }

end Step

/-! ## Names -/

section Names

variable {call other : Call}

theorem padded_injective {m n : ℕ} (h : padded m = padded n) : m = n := by
  have hvalue : ∀ k : ℕ, Nat.ofDigitChars 10 (padded k) 0 = k := by
    intro k
    have hzeros : ∀ z : ℕ, Nat.ofDigitChars 10 (List.replicate z '0') 0 = 0 := by
      intro z
      induction z with
      | zero => rfl
      | succ z ih => simp [List.replicate_succ, Nat.ofDigitChars_cons, ih]
    rw [padded, Nat.ofDigitChars_append, hzeros,
      Nat.ofDigitChars_toDigits (by decide) (by decide)]
  rw [← hvalue m, h, hvalue n]

theorem toList_finalPath (call : Call) :
    call.finalPath.toList = call.stem ++ ".frame".toList :=
  String.toList_ofList

theorem toList_tmp (call : Call) : call.tmp.toList = call.stem ++ ".tmp".toList :=
  String.toList_ofList

theorem hasFrameExtension_finalPath (call : Call) :
    Relay.hasFrameExtension call.finalPath = true := by
  have hne : call.finalPath ≠ ".frame" := by
    intro h
    have hlist : call.stem ++ ".frame".toList = ".frame".toList := by
      rw [← toList_finalPath, h]
    have hstem : call.stem = [] := List.append_left_eq_self.1 hlist
    have hlength : 0 < call.stem.length := by
      simp only [Call.stem, List.length_append, List.length_cons]
      omega
    rw [hstem] at hlength
    cases hlength
  have hsuffix : ".frame".toList <:+ call.finalPath.toList := by
    rw [toList_finalPath]
    exact List.suffix_append _ _
  rw [Relay.hasFrameExtension, List.isSuffixOf_iff_suffix.2 hsuffix, Bool.true_and]
  exact bne_iff_ne.2 hne

theorem hasFrameExtension_tmp (call : Call) : Relay.hasFrameExtension call.tmp = false := by
  have hsuffix : ¬ ".frame".toList <:+ call.tmp.toList := by
    rw [toList_tmp]
    rintro ⟨before, h⟩
    have hlast := congrArg List.getLast? h
    simp at hlast
  have hno : ".frame".toList.isSuffixOf call.tmp.toList = false :=
    Bool.eq_false_iff.2 fun h => hsuffix (List.isSuffixOf_iff_suffix.1 h)
  rw [Relay.hasFrameExtension, hno, Bool.false_and]

theorem tmp_ne_finalPath : call.tmp ≠ other.finalPath := by
  intro h
  have htmp := hasFrameExtension_tmp call
  rw [h, hasFrameExtension_finalPath] at htmp
  cases htmp

/-- Identifiers of one length tell stems apart. -/
theorem stem_ne (hlength : call.id.length = other.id.length) (hid : call.id ≠ other.id) :
    call.stem ≠ other.stem := by
  intro h
  refine hid (String.toList_injective ?_)
  exact (List.append_inj' h hlength).2

theorem tmp_ne (h : call.stem ≠ other.stem) : call.tmp ≠ other.tmp := by
  intro he
  exact h (List.append_cancel_right (String.ofList_injective he))

theorem finalPath_ne (h : call.stem ≠ other.stem) : call.finalPath ≠ other.finalPath := by
  intro he
  exact h (List.append_cancel_right (String.ofList_injective he))

end Names

/-! ## The frames of a directory -/

section Frames

variable {files : Dir} {name : String} {bytes : List UInt8}

theorem mem_listFrames : name ∈ listFrames files ↔
    (files.lookup name).isSome = true ∧ Relay.hasFrameExtension name = true := by
  rw [listFrames, (List.perm_insertionSort _ _).mem_iff, List.mem_filter, ← AList.mem_keys,
    AList.lookup_isSome]

theorem sorted_listFrames (files : Dir) : (listFrames files).Pairwise (· ≤ ·) :=
  List.pairwise_insertionSort _ _

theorem length_listFrames (files : Dir) :
    (listFrames files).length = files.keys.countP Relay.hasFrameExtension := by
  rw [listFrames, List.length_insertionSort, List.countP_eq_length_filter]

theorem length_listFrames_erase (h : (files.lookup name).isSome = true) :
    (listFrames (files.erase name)).length + (if Relay.hasFrameExtension name then 1 else 0) =
      (listFrames files).length := by
  have hmem : name ∈ files.keys := AList.mem_keys.1 (AList.lookup_isSome.1 h)
  rw [length_listFrames, length_listFrames, AList.keys_erase,
    (List.perm_cons_erase hmem).countP_eq, List.countP_cons]

theorem length_listFrames_erase_le (files : Dir) (name : String) :
    (listFrames (files.erase name)).length ≤ (listFrames files).length := by
  rw [length_listFrames, length_listFrames, AList.keys_erase]
  exact List.Sublist.countP_le (List.erase_sublist)

theorem length_listFrames_insert (files : Dir) (name : String) (bytes : List UInt8) :
    (listFrames (files.insert name bytes)).length ≤
      (listFrames files).length + (if Relay.hasFrameExtension name then 1 else 0) := by
  rw [length_listFrames, length_listFrames, AList.keys_insert, List.countP_cons]
  have hle := (List.erase_sublist (a := name) (l := files.keys)).countP_le
    (p := Relay.hasFrameExtension)
  omega

end Frames

/-! ## Every call ends -/

/-- The names of frames, in order. -/
structure Listing (listed : List String) : Prop where
  sorted : listed.Pairwise (· ≤ ·)
  frames : ∀ name ∈ listed, Relay.hasFrameExtension name = true

theorem listing_listFrames (files : Dir) : Listing (listFrames files) :=
  ⟨sorted_listFrames files, fun _ h => (mem_listFrames.1 h).2⟩

/-- What a call remembers is a listing, and what it evicts is the first of it. -/
def Phase.Listed : Phase → Prop
  | .sizing listed _ _ => Listing listed
  | .evicting oldest listed => oldest ∈ listed.head? ∧ Listing listed
  | _ => True

theorem listed_evictFirst {listed : List String} (h : Listing listed) :
    (evictFirst listed).Listed := by
  cases listed with
  | nil => trivial
  | cons oldest rest => exact ⟨rfl, h⟩

/-- How many steps a call takes at most before it returns or removes a frame. -/
def Phase.rank : Phase → ℕ
  | .listing => maxSpoolFiles + 7
  | .sizing _ rest _ => rest.length + 7
  | .evicting .. => 6
  | .writing => 5
  | .hardeningTmp => 4
  | .movingTmp => 3
  | .hardening => 2
  | .done _ => 0

/-- The frame of the call that is still to come. -/
def Phase.pending : Phase → ℕ
  | .hardening | .done _ => 0
  | _ => 1

/-- A bound of the steps of all calls. Every frame, there or to come, may cost one more round of
a call. -/
def SpoolState.work (s : SpoolState) : ℕ :=
  (s.calls.map fun c => c.2.rank).sum +
    (maxSpoolFiles + 7) * ((listFrames s.files).length + (s.calls.map fun c => c.2.pending).sum)

section Work

variable {platform : Platform} {call : Call} {i : ℕ} {files files' : Dir} {phase phase' : Phase}
  {removed : List Removal}

theorem evictFirst_rank (listed : List String) :
    (evictFirst listed).rank ≤ 6 ∧ (evictFirst listed).pending = 1 := by
  cases listed <;> simp [evictFirst, Phase.rank, Phase.pending]

theorem listed_call (hlisted : phase.Listed)
    (h : call.step platform i files phase = some (phase', files', removed)) : phase'.Listed := by
  cases phase with
  | listing =>
    simp only [Call.step, Option.some.injEq, Prod.mk.injEq] at h
    obtain ⟨rfl, -, -⟩ := h
    split
    · exact listing_listFrames files
    · exact listed_evictFirst (listing_listFrames files)
  | sizing listed rest total =>
    cases rest with
    | nil =>
      simp only [Call.step, Option.some.injEq, Prod.mk.injEq] at h
      obtain ⟨rfl, -, -⟩ := h
      split
      · trivial
      · exact listed_evictFirst hlisted
    | cons name rest =>
      simp only [Call.step, Option.some.injEq, Prod.mk.injEq] at h
      obtain ⟨rfl, -, -⟩ := h
      exact hlisted
  | evicting oldest listed =>
    simp only [Call.step] at h
    split at h <;> obtain ⟨rfl, -, -⟩ := h <;> trivial
  | writing =>
    simp only [Call.step] at h
    split at h <;> obtain ⟨rfl, -, -⟩ := h <;> trivial
  | hardeningTmp =>
    simp only [Call.step, Option.some.injEq, Prod.mk.injEq] at h
    obtain ⟨rfl, -, -⟩ := h
    split <;> trivial
  | movingTmp =>
    simp only [Call.step] at h
    split at h <;> obtain ⟨rfl, -, -⟩ := h <;> trivial
  | hardening =>
    simp only [Call.step, Option.some.injEq, Prod.mk.injEq] at h
    obtain ⟨rfl, -, -⟩ := h
    trivial
  | done result => cases h

/-- A step of a call leaves less work. -/
theorem work_call (hlisted : phase.Listed)
    (h : call.step platform i files phase = some (phase', files', removed)) :
    phase'.rank + (maxSpoolFiles + 7) * ((listFrames files').length + phase'.pending) <
      phase.rank + (maxSpoolFiles + 7) * ((listFrames files).length + phase.pending) := by
  cases phase with
  | listing =>
    simp only [Call.step, Option.some.injEq, Prod.mk.injEq] at h
    obtain ⟨rfl, rfl, -⟩ := h
    have hevict := evictFirst_rank (listFrames files)
    split
    · simp only [Phase.rank, Phase.pending]
      omega
    · rw [hevict.2]
      show _ < (maxSpoolFiles + 7) + (maxSpoolFiles + 7) * ((listFrames files).length + 1)
      omega
  | sizing listed rest total =>
    cases rest with
    | nil =>
      simp only [Call.step, Option.some.injEq, Prod.mk.injEq] at h
      obtain ⟨rfl, rfl, -⟩ := h
      have hevict := evictFirst_rank listed
      split
      · simp [Phase.rank, Phase.pending]
      · rw [hevict.2]
        show _ < 0 + 7 + (maxSpoolFiles + 7) * ((listFrames files).length + 1)
        omega
    | cons name rest =>
      simp only [Call.step, Option.some.injEq, Prod.mk.injEq] at h
      obtain ⟨rfl, rfl, -⟩ := h
      simp [Phase.rank, Phase.pending]
  | evicting oldest listed =>
    simp only [Call.step] at h
    split at h
    · rename_i bytes hbytes
      obtain ⟨rfl, rfl, -⟩ := h
      have herase := length_listFrames_erase (Option.isSome_iff_exists.2 ⟨bytes, hbytes⟩)
      have hext : Relay.hasFrameExtension oldest = true :=
        hlisted.2.frames oldest (List.mem_of_mem_head? hlisted.1)
      rw [if_pos hext] at herase
      simp only [Phase.rank, Phase.pending, maxSpoolFiles]
      omega
    · obtain ⟨rfl, rfl, -⟩ := h
      simp only [Phase.rank, Phase.pending, maxSpoolFiles]
      omega
  | writing =>
    simp only [Call.step] at h
    split at h
    · rename_i frame hframe
      obtain ⟨rfl, rfl, -⟩ := h
      have hinsert := length_listFrames_insert files call.tmp frame
      simp only [hasFrameExtension_tmp, Bool.false_eq_true, if_false] at hinsert
      simp only [Phase.rank, Phase.pending, maxSpoolFiles]
      omega
    · obtain ⟨rfl, rfl, -⟩ := h
      simp only [Phase.rank, Phase.pending, maxSpoolFiles]
      omega
  | hardeningTmp =>
    simp only [Call.step, Option.some.injEq, Prod.mk.injEq] at h
    obtain ⟨rfl, rfl, -⟩ := h
    split <;> simp only [Phase.rank, Phase.pending, maxSpoolFiles] <;> omega
  | movingTmp =>
    simp only [Call.step] at h
    split at h
    · rename_i frame hframe
      obtain ⟨rfl, rfl, -⟩ := h
      have hinsert := length_listFrames_insert (files.erase call.tmp) call.finalPath frame
      have herase := length_listFrames_erase_le files call.tmp
      simp only [hasFrameExtension_finalPath, if_true] at hinsert
      simp only [Phase.rank, Phase.pending, maxSpoolFiles]
      omega
    · obtain ⟨rfl, rfl, -⟩ := h
      simp only [Phase.rank, Phase.pending, maxSpoolFiles]
      omega
  | hardening =>
    simp only [Call.step, Option.some.injEq, Prod.mk.injEq] at h
    obtain ⟨rfl, rfl, -⟩ := h
    simp only [Phase.rank, Phase.pending, maxSpoolFiles]
    omega
  | done result => cases h

theorem sum_set {α : Type} (f : α → ℕ) {l : List α} {a b : α} (h : l[i]? = some a) :
    ((l.set i b).map f).sum + f a = (l.map f).sum + f b := by
  induction l generalizing i with
  | nil => cases h
  | cons x l ih =>
    cases i with
    | zero =>
      cases h
      simp only [List.set_cons_zero, List.map_cons, List.sum_cons]
      omega
    | succ i =>
      have hrest := ih (i := i) h
      simp only [List.set_cons_succ, List.map_cons, List.sum_cons]
      omega

variable {s t : SpoolState} {act : SpoolAct}

/-- What a step of a call does to the state. -/
theorem spoolStep_call (h : spoolStep platform s (.call i) = some t) :
    ∃ call phase phase' files removed, s.calls[i]? = some (call, phase) ∧
      call.step platform i s.files phase = some (phase', files, removed) ∧
      t = { s with
        files := files
        calls := s.calls.set i (call, phase')
        log := s.log ++ removed } := by
  simp only [spoolStep, Option.bind_eq_bind] at h
  obtain ⟨⟨call, phase⟩, hcall, h⟩ := Option.bind_eq_some_iff.1 h
  obtain ⟨⟨phase', files, removed⟩, hstep, h⟩ := Option.bind_eq_some_iff.1 h
  exact ⟨call, phase, phase', files, removed, hcall, hstep, (Option.some.inj h).symm⟩

/-- A step of the drain removes at most one file, and leaves the calls alone. -/
theorem spoolStep_drain (hact : act.isCall = false) (h : spoolStep platform s act = some t) :
    t.calls = s.calls ∧ ((t.files = s.files ∧ t.log = s.log) ∨
      ∃ name rest bytes, s.drain = .removing name rest ∧ s.files.lookup name = some bytes ∧
        t.files = s.files.erase name ∧ t.log = s.log ++ [.drained name bytes]) := by
  cases act with
  | call i => cases hact
  | startDrain =>
    simp only [spoolStep] at h
    split at h
    · cases h
      exact ⟨rfl, Or.inl ⟨rfl, rfl⟩⟩
    · cases h
  | read usable =>
    simp only [spoolStep] at h
    split at h
    · cases h
      exact ⟨rfl, Or.inl ⟨rfl, rfl⟩⟩
    · cases h
  | settle accepted =>
    simp only [spoolStep] at h
    split at h
    · cases h
      exact ⟨rfl, Or.inl ⟨rfl, rfl⟩⟩
    · cases h
  | remove =>
    simp only [spoolStep] at h
    split at h
    · rename_i name rest hdrain
      split at h
      · rename_i bytes hbytes
        cases h
        exact ⟨rfl, Or.inr ⟨name, rest, bytes, hdrain, hbytes, rfl, rfl⟩⟩
      · cases h
        exact ⟨rfl, Or.inl ⟨rfl, rfl⟩⟩
    · cases h
  | stopDrain =>
    cases h
    exact ⟨rfl, Or.inl ⟨rfl, rfl⟩⟩

def SpoolState.Listed (s : SpoolState) : Prop :=
  ∀ (i : ℕ) (c : Call × Phase), s.calls[i]? = some c → c.2.Listed

theorem listed_step (hs : s.Listed) (h : spoolStep platform s act = some t) : t.Listed := by
  cases hact : act.isCall with
  | true =>
    cases act with
    | call i =>
      obtain ⟨call, phase, phase', files, removed, hcall, hstep, rfl⟩ := spoolStep_call h
      intro j c hj
      have hj' : (s.calls.set i (call, phase'))[j]? = some c := hj
      rw [List.getElem?_set] at hj'
      split at hj'
      · split at hj'
        · cases hj'
          exact listed_call (hs i _ hcall) hstep
        · cases hj'
      · exact hs j c hj'
    | _ => cases hact
  | false =>
    obtain ⟨hcalls, -⟩ := spoolStep_drain hact h
    intro j c hj
    rw [hcalls] at hj
    exact hs j c hj

theorem work_step (hs : s.Listed) (h : spoolStep platform s act = some t) :
    t.work + (if act.isCall then 1 else 0) ≤ s.work := by
  cases hact : act.isCall with
  | true =>
    cases act with
    | call i =>
      obtain ⟨call, phase, phase', files, removed, hcall, hstep, rfl⟩ := spoolStep_call h
      have hwork := work_call (hs i _ hcall) hstep
      have hrank := sum_set (fun c : Call × Phase => c.2.rank) (b := (call, phase')) hcall
      have hpending := sum_set (fun c : Call × Phase => c.2.pending) (b := (call, phase')) hcall
      simp only [SpoolState.work, maxSpoolFiles, if_true] at hwork ⊢
      dsimp only at hrank hpending
      omega
    | _ => cases hact
  | false =>
    obtain ⟨hcalls, hfiles⟩ := spoolStep_drain hact h
    have hle : (listFrames t.files).length ≤ (listFrames s.files).length := by
      rcases hfiles with ⟨hfiles, -⟩ | ⟨name, rest, bytes, -, -, hfiles, -⟩
      · rw [hfiles]
      · rw [hfiles]
        exact length_listFrames_erase_le _ _
    simp only [SpoolState.work, hcalls, maxSpoolFiles, Bool.false_eq_true, if_false]
    omega

/-- In a run the calls take no more steps than there was work. -/
theorem work_run {acts : List SpoolAct} (hs : s.Listed)
    (h : run (spoolStep platform) s acts = some t) :
    t.work + acts.countP SpoolAct.isCall ≤ s.work := by
  induction acts generalizing s with
  | nil =>
    cases h
    simp
  | cons act acts ih =>
    obtain ⟨u, hu, hrest⟩ := run_cons.1 h
    have hstep := work_step hs hu
    have hrun := ih (listed_step hs hu) hrest
    rw [List.countP_cons]
    omega

/-- A call that has not returned can take its next step. -/
theorem exists_step (hcall : s.calls[i]? = some (call, phase))
    (hphase : ∀ result, phase ≠ .done result) : ∃ t, spoolStep platform s (.call i) = some t := by
  have hstep : ∃ r, call.step platform i s.files phase = some r := by
    cases phase with
    | listing => exact ⟨_, rfl⟩
    | sizing listed rest total =>
      cases rest with
      | nil => exact ⟨_, rfl⟩
      | cons name rest => exact ⟨_, rfl⟩
    | evicting oldest listed =>
      simp only [Call.step]
      split <;> exact ⟨_, rfl⟩
    | writing =>
      simp only [Call.step]
      split <;> exact ⟨_, rfl⟩
    | hardeningTmp => exact ⟨_, rfl⟩
    | movingTmp =>
      simp only [Call.step]
      split <;> exact ⟨_, rfl⟩
    | hardening => exact ⟨_, rfl⟩
    | done result => exact absurd rfl (hphase result)
  obtain ⟨⟨phase', files, removed⟩, hstep⟩ := hstep
  simp only [spoolStep, Option.bind_eq_bind, hcall, Option.bind_some, hstep]
  exact ⟨_, rfl⟩

end Work

/-! ## Where a frame is -/

/-- The removal took this frame away from call `i` : the drain did, or another call that had
found it first in the order of names. -/
def Removal.Takes (i : ℕ) (name : String) (bytes : List UInt8) : Removal → Prop
  | .drained name' bytes' => name' = name ∧ bytes' = bytes
  | .evicted j listed bytes' =>
    j ≠ i ∧ name ∈ listed.head? ∧ listed.Pairwise (· ≤ ·) ∧ bytes' = bytes

/-- The frame of call `i` is there, or was taken away. -/
def Kept (files : Dir) (log : List Removal) (i : ℕ) (name : String) (bytes : List UInt8) : Prop :=
  files.lookup name = some bytes ∨ ∃ removal ∈ log, removal.Takes i name bytes

/-- Every call of an encodable message that returned returned the path of its frame, which is
there or was taken away. -/
def SpoolState.Delivers (s : SpoolState) : Prop :=
  ∀ (i : ℕ) (call : Call) result frame, s.calls[i]? = some (call, .done result) →
    encodeMessage call.message = .ok frame →
    result = .ok call.finalPath ∧ Kept s.files s.log i call.finalPath frame

/-- The file a call is about to remove, or has just renamed, is gone. -/
def Call.misses (platform : Platform) (call : Call) (files : Dir) : Phase → Bool
  | .evicting oldest _ => (files.lookup oldest).isNone
  | .hardening => !hardens platform files call.finalPath
  | _ => false

/-- No call of an encodable message misses a file. -/
def NothingGone (platform : Platform) (s : SpoolState) : SpoolAct → Prop
  | .call i => ∀ call phase, s.calls[i]? = some (call, phase) →
    (encodeMessage call.message).isOk = true → call.misses platform s.files phase = false
  | _ => True

/-- What the drain remembers are names of frames. -/
def Drain.Listed : Drain → Prop
  | .idle => True
  | .reading rest => ∀ name ∈ rest, Relay.hasFrameExtension name = true
  | .waiting name rest | .removing name rest =>
    Relay.hasFrameExtension name = true ∧ ∀ name ∈ rest, Relay.hasFrameExtension name = true

/-- The calls begin. -/
structure Starting (s : SpoolState) : Prop where
  phases : ∀ c ∈ s.calls, c.2 = .listing
  drain : s.drain.Listed
  log : s.log = []

/-- `new_v4` : identifiers of 36 characters, all different. -/
structure DistinctIds (s : SpoolState) : Prop where
  length : ∀ c ∈ s.calls, c.1.id.length = 36
  nodup : (s.calls.map fun c => c.1.id).Nodup

/-- Every call has its own stem. -/
def OwnStems (calls : List Call) : Prop :=
  ∀ (i j : ℕ) (c d : Call), calls[i]? = some c → calls[j]? = some d → i ≠ j → c.stem ≠ d.stem

theorem DistinctIds.ownStems {s : SpoolState} (h : DistinctIds s) :
    OwnStems (s.calls.map Prod.fst) := by
  have hnodup : ((s.calls.map Prod.fst).map Call.id).Nodup := by
    simpa [Function.comp_def] using h.nodup
  have hlength : ∀ c ∈ s.calls.map Prod.fst, c.id.length = 36 := by
    intro c hc
    obtain ⟨c', hc', rfl⟩ := List.mem_map.1 hc
    exact h.length c' hc'
  intro i j c d hc hd hij
  refine stem_ne ?_ fun hid => hij ?_
  · rw [hlength c (List.mem_of_getElem? hc), hlength d (List.mem_of_getElem? hd)]
  · obtain ⟨hi, rfl⟩ := List.getElem?_eq_some_iff.1 hc
    obtain ⟨hj, rfl⟩ := List.getElem?_eq_some_iff.1 hd
    have hi' : i < ((s.calls.map Prod.fst).map Call.id).length := by simpa using hi
    have hj' : j < ((s.calls.map Prod.fst).map Call.id).length := by simpa using hj
    have hsame : ((s.calls.map Prod.fst).map Call.id)[i] =
        ((s.calls.map Prod.fst).map Call.id)[j] := by simpa using hid
    exact hnodup.getElem_inj_iff.1 hsame

/-! ## The invariant -/

/-- What holds for a call in a phase, if no call has missed a file. -/
def Call.Sound (call : Call) (files : Dir) (log : List Removal) (i : ℕ) : Phase → Prop
  | .hardeningTmp | .movingTmp =>
    ∃ frame, encodeMessage call.message = .ok frame ∧ files.lookup call.tmp = some frame
  | .hardening =>
    ∃ frame, encodeMessage call.message = .ok frame ∧ Kept files log i call.finalPath frame
  | .done result => ∀ frame, encodeMessage call.message = .ok frame →
    result = .ok call.finalPath ∧ Kept files log i call.finalPath frame
  | _ => True

section Invariant

variable {platform : Platform} {call : Call} {i : ℕ} {files files' : Dir} {phase phase' : Phase}
  {log log' removed : List Removal}

/-- What a step of the drain, or of the call given, does to the files : it removes a frame, or
writes files of the call. -/
inductive Change (files : Dir) (log : List Removal) : Option (ℕ × Call) → Dir → List Removal → Prop
  | same {actor : Option (ℕ × Call)} : Change files log actor files log
  | drained {name : String} {bytes : List UInt8} (hlookup : files.lookup name = some bytes)
      (hext : Relay.hasFrameExtension name = true) :
      Change files log none (files.erase name) (log ++ [.drained name bytes])
  | evicted {j : ℕ} {c : Call} {name : String} {listed : List String} {bytes : List UInt8}
      (hlookup : files.lookup name = some bytes) (hfirst : name ∈ listed.head?)
      (hlisted : Listing listed) :
      Change files log (some (j, c)) (files.erase name) (log ++ [.evicted j listed bytes])
  | written {j : ℕ} {c : Call} {frame : List UInt8} :
      Change files log (some (j, c)) (files.insert c.tmp frame) log
  | renamed {j : ℕ} {c : Call} {frame : List UInt8} :
      Change files log (some (j, c)) ((files.erase c.tmp).insert c.finalPath frame) log

/-- The change is not one of call `i`. -/
def Foreign (call : Call) (i : ℕ) (actor : Option (ℕ × Call)) : Prop :=
  ∀ a ∈ actor, a.1 ≠ i ∧ a.2.stem ≠ call.stem

variable {actor : Option (ℕ × Call)}

theorem tmp_change (hforeign : Foreign call i actor) (hc : Change files log actor files' log')
    {frame : List UInt8} (h : files.lookup call.tmp = some frame) :
    files'.lookup call.tmp = some frame := by
  have hframe : ∀ {name}, Relay.hasFrameExtension name = true → call.tmp ≠ name := by
    rintro name hext rfl
    rw [hasFrameExtension_tmp] at hext
    cases hext
  cases hc with
  | same => exact h
  | drained hlookup hext => exact (AList.lookup_erase_ne (hframe hext)).trans h
  | evicted hlookup hfirst hlisted =>
    have hext := hlisted.frames _ (List.mem_of_mem_head? hfirst)
    exact (AList.lookup_erase_ne (hframe hext)).trans h
  | written =>
    have hstem := (hforeign _ rfl).2
    exact (AList.lookup_insert_ne (tmp_ne hstem.symm)).trans h
  | renamed =>
    have hstem := (hforeign _ rfl).2
    rw [AList.lookup_insert_ne tmp_ne_finalPath]
    exact (AList.lookup_erase_ne (tmp_ne hstem.symm)).trans h

/-- A frame leaves the directory only by a removal that is logged. -/
theorem kept_change (hforeign : Foreign call i actor) (hc : Change files log actor files' log')
    {frame : List UInt8} (h : Kept files log i call.finalPath frame) :
    Kept files' log' i call.finalPath frame := by
  have hlogged : ∀ {more}, (∃ removal ∈ log, removal.Takes i call.finalPath frame) →
      ∃ removal ∈ log ++ more, removal.Takes i call.finalPath frame := by
    rintro more ⟨removal, hmem, htakes⟩
    exact ⟨removal, List.mem_append_left _ hmem, htakes⟩
  have hremoved : ∀ {name bytes removal}, files.lookup name = some bytes →
      (name = call.finalPath → bytes = frame → removal.Takes i call.finalPath frame) →
      Kept (files.erase name) (log ++ [removal]) i call.finalPath frame := by
    intro name bytes removal hlookup htakes
    rcases h with hthere | hgone
    · by_cases hname : name = call.finalPath
      · rw [hname] at hlookup
        have hbytes := Option.some.inj (hlookup.symm.trans hthere)
        exact Or.inr ⟨removal, List.mem_append_right _ (List.mem_singleton_self _),
          htakes hname hbytes⟩
      · exact Or.inl ((AList.lookup_erase_ne (Ne.symm hname)).trans hthere)
    · exact Or.inr (hlogged hgone)
  cases hc with
  | same => exact h
  | drained hlookup hext => exact hremoved hlookup fun hname hbytes => ⟨hname, hbytes⟩
  | evicted hlookup hfirst hlisted =>
    refine hremoved hlookup fun hname hbytes => ⟨(hforeign _ rfl).1, ?_, hlisted.sorted, hbytes⟩
    exact hname ▸ hfirst
  | written =>
    rcases h with hthere | hgone
    · exact Or.inl ((AList.lookup_insert_ne tmp_ne_finalPath.symm).trans hthere)
    · exact Or.inr hgone
  | renamed =>
    have hstem := (hforeign _ rfl).2
    rcases h with hthere | hgone
    · refine Or.inl ?_
      rw [AList.lookup_insert_ne (finalPath_ne hstem.symm)]
      exact (AList.lookup_erase_ne tmp_ne_finalPath.symm).trans hthere
    · exact Or.inr hgone

/-- What others do does not harm a call. -/
theorem sound_change (hforeign : Foreign call i actor) (hc : Change files log actor files' log')
    (h : call.Sound files log i phase) : call.Sound files' log' i phase := by
  cases phase with
  | hardeningTmp =>
    obtain ⟨frame, hframe, htmp⟩ := h
    exact ⟨frame, hframe, tmp_change hforeign hc htmp⟩
  | movingTmp =>
    obtain ⟨frame, hframe, htmp⟩ := h
    exact ⟨frame, hframe, tmp_change hforeign hc htmp⟩
  | hardening =>
    obtain ⟨frame, hframe, hkept⟩ := h
    exact ⟨frame, hframe, kept_change hforeign hc hkept⟩
  | done result =>
    intro frame hframe
    obtain ⟨hresult, hkept⟩ := h frame hframe
    exact ⟨hresult, kept_change hforeign hc hkept⟩
  | _ => trivial

/-- A step of a call that misses no file. -/
theorem sound_call (hlisted : phase.Listed)
    (hmiss : (encodeMessage call.message).isOk = true → call.misses platform files phase = false)
    (h : call.Sound files log i phase)
    (hstep : call.step platform i files phase = some (phase', files', removed)) :
    Change files log (some (i, call)) files' (log ++ removed) ∧
      call.Sound files' (log ++ removed) i phase' := by
  have hevict : ∀ listed, call.Sound files log i (evictFirst listed) := by
    intro listed
    cases listed <;> trivial
  cases phase with
  | listing =>
    simp only [Call.step, Option.some.injEq, Prod.mk.injEq] at hstep
    obtain ⟨rfl, rfl, rfl⟩ := hstep
    rw [List.append_nil]
    refine ⟨.same, ?_⟩
    split
    · trivial
    · exact hevict _
  | sizing listed rest total =>
    cases rest with
    | nil =>
      simp only [Call.step, Option.some.injEq, Prod.mk.injEq] at hstep
      obtain ⟨rfl, rfl, rfl⟩ := hstep
      rw [List.append_nil]
      refine ⟨.same, ?_⟩
      split
      · trivial
      · exact hevict _
    | cons name rest =>
      simp only [Call.step, Option.some.injEq, Prod.mk.injEq] at hstep
      obtain ⟨rfl, rfl, rfl⟩ := hstep
      rw [List.append_nil]
      exact ⟨.same, trivial⟩
  | evicting oldest listed =>
    simp only [Call.step] at hstep
    split at hstep
    · rename_i bytes hbytes
      obtain ⟨rfl, rfl, rfl⟩ := hstep
      exact ⟨.evicted hbytes hlisted.1 hlisted.2, trivial⟩
    · rename_i hgone
      obtain ⟨rfl, rfl, rfl⟩ := hstep
      rw [List.append_nil]
      refine ⟨.same, fun frame hframe => ?_⟩
      have hno := hmiss (by rw [hframe]; rfl)
      rw [Call.misses, hgone] at hno
      cases hno
  | writing =>
    simp only [Call.step] at hstep
    split at hstep
    · rename_i frame hframe
      obtain ⟨rfl, rfl, rfl⟩ := hstep
      rw [List.append_nil]
      exact ⟨.written, frame, hframe, AList.lookup_insert _⟩
    · rename_i e he
      obtain ⟨rfl, rfl, rfl⟩ := hstep
      rw [List.append_nil]
      refine ⟨.same, fun frame hframe => ?_⟩
      rw [he] at hframe
      cases hframe
  | hardeningTmp =>
    obtain ⟨frame, hframe, htmp⟩ := h
    have hhard : hardens platform files call.tmp = true := by
      cases platform with
      | unix => exact Option.isSome_iff_exists.2 ⟨frame, htmp⟩
      | windows => rfl
    simp only [Call.step, if_pos hhard, Option.some.injEq, Prod.mk.injEq] at hstep
    obtain ⟨rfl, rfl, rfl⟩ := hstep
    rw [List.append_nil]
    exact ⟨.same, frame, hframe, htmp⟩
  | movingTmp =>
    obtain ⟨frame, hframe, htmp⟩ := h
    simp only [Call.step, htmp, Option.some.injEq, Prod.mk.injEq] at hstep
    obtain ⟨rfl, rfl, rfl⟩ := hstep
    rw [List.append_nil]
    exact ⟨.renamed, frame, hframe, Or.inl (AList.lookup_insert _)⟩
  | hardening =>
    obtain ⟨frame, hframe, hkept⟩ := h
    have hno := hmiss (by rw [hframe]; rfl)
    have hhard : hardens platform files call.finalPath = true := by simpa [Call.misses] using hno
    simp only [Call.step, if_pos hhard, Option.some.injEq, Prod.mk.injEq] at hstep
    obtain ⟨rfl, rfl, rfl⟩ := hstep
    rw [List.append_nil]
    refine ⟨.same, fun frame' hframe' => ⟨rfl, ?_⟩⟩
    obtain rfl := Except.ok.inj (hframe.symm.trans hframe')
    exact hkept
  | done result => cases hstep

structure Inv (s : SpoolState) : Prop where
  listed : s.Listed
  drain : s.drain.Listed
  stems : OwnStems (s.calls.map Prod.fst)
  sound : ∀ (i : ℕ) (c : Call × Phase), s.calls[i]? = some c → c.1.Sound s.files s.log i c.2

end Invariant

section Run

variable {platform : Platform} {s t : SpoolState} {act : SpoolAct}

theorem drain_step (hs : s.drain.Listed) (h : spoolStep platform s act = some t) :
    t.drain.Listed := by
  have hlist : ∀ name ∈ listFrames s.files, Relay.hasFrameExtension name = true :=
    (listing_listFrames s.files).frames
  cases act with
  | call i =>
    obtain ⟨call, phase, phase', files, removed, -, -, rfl⟩ := spoolStep_call h
    exact hs
  | startDrain =>
    simp only [spoolStep] at h
    split at h <;> cases h
    exact hlist
  | read usable =>
    simp only [spoolStep] at h
    split at h <;> cases h
    rename_i name rest hdrain
    rw [hdrain] at hs
    have hparts := List.forall_mem_cons.1 hs
    dsimp only
    split
    · exact ⟨hparts.1, hparts.2⟩
    · trivial
  | settle accepted =>
    simp only [spoolStep] at h
    split at h <;> cases h
    rename_i name rest hdrain
    rw [hdrain] at hs
    dsimp only
    split
    · exact hs
    · trivial
  | remove =>
    simp only [spoolStep] at h
    split at h
    · rename_i name rest hdrain
      rw [hdrain] at hs
      split at h <;> cases h
      · exact hs.2
      · trivial
    · cases h
  | stopDrain =>
    cases h
    trivial

theorem calls_step (h : spoolStep platform s act = some t) :
    t.calls.map Prod.fst = s.calls.map Prod.fst := by
  cases hact : act.isCall with
  | true =>
    cases act with
    | call i =>
      obtain ⟨call, phase, phase', files, removed, hcall, -, rfl⟩ := spoolStep_call h
      have hfst : (s.calls.map Prod.fst)[i]? = some call := by
        rw [List.getElem?_map, hcall]
        rfl
      obtain ⟨hi, hget⟩ := List.getElem?_eq_some_iff.1 hfst
      show (s.calls.set i (call, phase')).map Prod.fst = _
      rw [List.map_set, ← hget]
      exact List.set_getElem_self hi
    | _ => cases hact
  | false => rw [(spoolStep_drain hact h).1]

theorem inv_step (hs : Inv s) (hgone : NothingGone platform s act)
    (h : spoolStep platform s act = some t) : Inv t := by
  refine ⟨listed_step hs.listed h, drain_step hs.drain h, calls_step h ▸ hs.stems, ?_⟩
  cases hact : act.isCall with
  | true =>
    cases act with
    | call i =>
      obtain ⟨call, phase, phase', files, removed, hcall, hstep, rfl⟩ := spoolStep_call h
      obtain ⟨hchange, hsound⟩ := sound_call (hs.listed i _ hcall) (hgone call phase hcall)
        (hs.sound i _ hcall) hstep
      intro j c hj
      replace hj : (s.calls.set i (call, phase'))[j]? = some c := hj
      rw [List.getElem?_set] at hj
      split at hj
      · rename_i hij
        subst hij
        split at hj
        · cases hj
          exact hsound
        · cases hj
      · rename_i hij
        refine sound_change ?_ hchange (hs.sound j c hj)
        rintro _ ⟨rfl⟩
        refine ⟨hij, hs.stems i j call c.1 ?_ ?_ hij⟩
        · rw [List.getElem?_map, hcall]
          rfl
        · rw [List.getElem?_map, hj]
          rfl
    | _ => cases hact
  | false =>
    obtain ⟨hcalls, heffect⟩ := spoolStep_drain hact h
    have hchange : Change s.files s.log none t.files t.log := by
      rcases heffect with ⟨hfiles, hlog⟩ | ⟨name, rest, bytes, hdrain, hlookup, hfiles, hlog⟩
      · rw [hfiles, hlog]
        exact .same
      · have hlisted := hs.drain
        rw [hdrain] at hlisted
        rw [hfiles, hlog]
        exact .drained hlookup hlisted.1
    intro j c hj
    rw [hcalls] at hj
    exact sound_change (fun a ha => by cases ha) hchange (hs.sound j c hj)

theorem Inv.delivers (hs : Inv s) : s.Delivers :=
  fun i call result frame hcall hframe => hs.sound i (call, .done result) hcall frame hframe

theorem inv_of_starting (hstart : Starting s) (hids : DistinctIds s) : Inv s := by
  refine ⟨fun i c hc => ?_, hstart.drain, hids.ownStems, fun i c hc => ?_⟩
  · rw [hstart.phases c (List.mem_of_getElem? hc)]
    trivial
  · rw [hstart.phases c (List.mem_of_getElem? hc)]
    trivial

/-- A call that returned stays as it is. -/
theorem done_run {acts : List SpoolAct} (h : run (spoolStep platform) s acts = some t) {i : ℕ}
    {call : Call} {result : Except IpcError String}
    (hcall : s.calls[i]? = some (call, .done result)) : t.calls[i]? = some (call, .done result) := by
  induction acts generalizing s with
  | nil =>
    cases h
    exact hcall
  | cons act acts ih =>
    obtain ⟨u, hu, hrest⟩ := run_cons.1 h
    refine ih hrest ?_
    cases hact : act.isCall with
    | true =>
      cases act with
      | call j =>
        obtain ⟨call', phase, phase', files, removed, hcall', hstep, rfl⟩ := spoolStep_call hu
        show (s.calls.set j (call', phase'))[i]? = _
        rw [List.getElem?_set_ne, hcall]
        rintro rfl
        rw [hcall] at hcall'
        cases hcall'
        cases hstep
      | _ => cases hact
    | false => rwa [(spoolStep_drain hact hu).1]

/-- A call that misses a file fails. -/
theorem fails_of_misses {i : ℕ} {call : Call} {phase : Phase}
    (hcall : s.calls[i]? = some (call, phase)) (hmiss : call.misses platform s.files phase = true)
    (h : spoolStep platform s (.call i) = some t) :
    t.calls[i]? = some (call, .done (.error notFound)) := by
  obtain ⟨call', phase₀, phase', files, removed, hcall', hstep, rfl⟩ := spoolStep_call h
  rw [hcall] at hcall'
  cases hcall'
  have hphase : phase' = .done (.error notFound) := by
    cases phase with
    | evicting oldest listed =>
      have hnone : s.files.lookup oldest = none := by simpa [Call.misses] using hmiss
      simp only [Call.step, hnone] at hstep
      cases hstep
      rfl
    | hardening =>
      have hhard : hardens platform s.files call.finalPath = false := by
        simpa [Call.misses] using hmiss
      simp only [Call.step, hhard] at hstep
      cases hstep
      rfl
    | _ => cases hmiss
  show (s.calls.set i (call, phase'))[i]? = _
  obtain ⟨hi, -⟩ := List.getElem?_eq_some_iff.1 hcall
  rw [List.getElem?_set_self hi, hphase]

/-- If every call delivered at the end, no call missed a file. -/
theorem guarded_of_delivers {acts : List SpoolAct} (h : run (spoolStep platform) s acts = some t)
    (hdelivers : t.Delivers) : Guarded (spoolStep platform) (NothingGone platform) s acts := by
  induction acts generalizing s with
  | nil => trivial
  | cons act acts ih =>
    obtain ⟨u, hu, hrest⟩ := run_cons.1 h
    refine ⟨?_, fun u' hu' => ?_⟩
    · cases act with
      | call i =>
        intro call phase hcall hencodes
        by_contra hmiss
        have hdone := done_run hrest (fails_of_misses hcall (by simpa using hmiss) hu)
        cases hframe : encodeMessage call.message with
        | ok frame => cases (hdelivers i call _ frame hdone hframe).1
        | error e =>
          rw [hframe] at hencodes
          cases hencodes
      | _ => trivial
    · obtain rfl := Option.some.inj (hu.symm.trans hu')
      exact ih hrest

end Run

/-- In every run of calls and a drain, the calls take a bounded number of steps and none is ever
stuck; and every call of an encodable message that returns has its frame in the directory, unless
the drain or a call after it took it, exactly if no call finds that a file it is about to remove
or has just renamed is gone. -/
theorem spool_keeps_event (platform : Platform) {s₀ s : SpoolState} {acts : List SpoolAct}
    (hstart : Starting s₀) (hids : DistinctIds s₀)
    (hrun : run (spoolStep platform) s₀ acts = some s) :
    acts.countP SpoolAct.isCall ≤ s₀.work ∧
    (∀ (i : ℕ) (call : Call) (phase : Phase), s.calls[i]? = some (call, phase) →
      (∃ result, phase = .done result) ∨ ∃ t, spoolStep platform s (.call i) = some t) ∧
    (s.Delivers ↔ Guarded (spoolStep platform) (NothingGone platform) s₀ acts) := by
  have hinv := inv_of_starting hstart hids
  refine ⟨?_, fun i call phase hcall => ?_, guarded_of_delivers hrun, fun hguard => ?_⟩
  · have hwork := work_run hinv.listed hrun
    omega
  · by_cases hdone : ∃ result, phase = .done result
    · exact Or.inl hdone
    · exact Or.inr (exists_step hcall fun result h => hdone ⟨result, h⟩)
  · exact (Guarded.invariant (fun _ _ _ hgone hs hstep => inv_step hs hgone hstep) hinv hguard
      hrun).delivers

/-! ## Samples -/

section Samples

/-- The event of a hook. -/
def ackMessage : WireMessage := .ack ipcWireVersion "r1"

/-- Hooks at the same moment. -/
def sampleCall (tieBreaker : ℕ) (id : String) : Call :=
  ⟨ackMessage, 1700000000000, tieBreaker, 0, id⟩

def firstCall : Call := sampleCall 1 "6f1c9e52-5f0e-4b5a-9f43-0d5f0f6a1c01"

def secondCall : Call := sampleCall 2 "b6a1a7c4-93d7-4c0e-8f11-7d1f5f3c2e02"

def twoCalls (files : Dir) : SpoolState :=
  { files, calls := [(firstCall, .listing), (secondCall, .listing)] }

theorem starting_twoCalls (files : Dir) : Starting (twoCalls files) :=
  ⟨by simp [twoCalls], trivial, rfl⟩

theorem distinctIds_twoCalls (files : Dir) : DistinctIds (twoCalls files) := by
  constructor
  · have hlength : ∀ c ∈ [firstCall, secondCall], c.id.length = 36 := by decide
    simpa [twoCalls] using hlength
  · have hnodup : ([firstCall, secondCall].map Call.id).Nodup := by decide
    simpa [twoCalls] using hnodup

/-- Both calls in turns, then the drain takes the first frame. -/
def turns : List SpoolAct :=
  (List.replicate 6 [SpoolAct.call 0, .call 1]).flatten ++
    [.startDrain, .read true, .settle true, .remove]

theorem spool_keeps_event_turns : ∃ s,
    run (spoolStep .unix) (twoCalls ∅) turns = some s ∧ s.Delivers ∧ s.log.length = 1 := by
  have hchecks : ((run (spoolStep .unix) (twoCalls ∅) turns).map fun s => s.log.length) = some 1 ∧
      checkRun (spoolStep .unix) (fun s act => match act with
        | .call i => (s.calls[i]?).all fun c => !c.1.misses .unix s.files c.2
        | _ => true) (twoCalls ∅) turns = true := by
    decide +kernel
  obtain ⟨hrun, hcheck⟩ := hchecks
  obtain ⟨s, hs, hlog⟩ := Option.map_eq_some_iff.1 hrun
  have hguard : Guarded (spoolStep .unix) (NothingGone .unix) (twoCalls ∅) turns := by
    refine Guarded.of_sound _ (fun s act hok => ?_) hcheck
    cases act with
    | call i =>
      intro call phase hcall _
      simpa [hcall] using hok
    | _ => trivial
  exact ⟨s, hs, (spool_keeps_event .unix (starting_twoCalls ∅) (distinctIds_twoCalls ∅) hs).2.2.2
    hguard, hlog⟩

/-- What earlier hooks have left behind. -/
def leftDir (n : ℕ) : Dir where
  entries := (List.range n).map fun i =>
    ⟨(sampleCall i "0d7b2c1e-8a65-4f0b-9f4e-3c2b1a09f8e7").finalPath, [0, 0, 0, 1, 32]⟩
  nodupKeys := by
    have hinj : Function.Injective fun i =>
        (sampleCall i "0d7b2c1e-8a65-4f0b-9f4e-3c2b1a09f8e7").finalPath := by
      intro i j h
      have hstem := List.append_cancel_right (String.ofList_injective h)
      simp only [Call.stem, List.append_assoc] at hstem
      have htie := List.append_cancel_left (List.append_cancel_left hstem)
      exact padded_injective (List.append_cancel_right htie)
    show List.Nodup (List.map Sigma.fst (List.map _ (List.range n)))
    rw [List.map_map]
    exact List.nodup_range.map hinj

theorem length_listFrames_leftDir (n : ℕ) : (listFrames (leftDir n)).length = n := by
  have hall : ∀ name ∈ (leftDir n).keys, Relay.hasFrameExtension name = true := by
    intro name hname
    obtain ⟨entry, hentry, rfl⟩ := List.mem_map.1 hname
    obtain ⟨i, -, rfl⟩ := List.mem_map.1 hentry
    exact hasFrameExtension_finalPath _
  rw [length_listFrames, List.countP_eq_length.2 hall]
  simp [AList.keys, List.keys, leftDir]

/-- In a full directory a call goes for the first file. -/
theorem step_listing {files : Dir} {oldest : String} {rest : List String} (call : Call) (i : ℕ)
    (hlisted : listFrames files = oldest :: rest)
    (hfull : maxSpoolFiles ≤ (listFrames files).length) :
    call.step .unix i files .listing = some (.evicting oldest (oldest :: rest), files, []) := by
  rw [hlisted] at hfull
  simp only [Call.step, hlisted, if_neg (Nat.not_lt.2 hfull)]
  rfl

/-- Two hooks find the spool full and go for the same file : the second one fails, and its event
is neither delivered nor spooled. -/
theorem two_hooks_lose_event : ∃ s,
    run (spoolStep .unix) (twoCalls (leftDir maxSpoolFiles)) [.call 0, .call 1, .call 0, .call 1] = some s ∧
    (encodeMessage secondCall.message).isOk = true ∧
    s.calls[1]? = some (secondCall, .done (.error notFound)) ∧ ¬ s.Delivers := by
  generalize hdir : leftDir maxSpoolFiles = fullDir
  have hfull : maxSpoolFiles ≤ (listFrames fullDir).length :=
    hdir ▸ (length_listFrames_leftDir maxSpoolFiles).ge
  obtain ⟨oldest, rest, hlisted⟩ : ∃ oldest rest, listFrames fullDir = oldest :: rest := by
    cases h : listFrames fullDir with
    | nil =>
      rw [h] at hfull
      cases hfull
    | cons oldest rest => exact ⟨oldest, rest, rfl⟩
  obtain ⟨bytes, hbytes⟩ : ∃ bytes, fullDir.lookup oldest = some bytes := by
    refine Option.isSome_iff_exists.1 (mem_listFrames.1 ?_).1
    rw [hlisted]
    exact List.mem_cons_self
  have hencodes : (encodeMessage secondCall.message).isOk = true := by decide
  set found := Phase.evicting oldest (oldest :: rest)
  have h₁ : spoolStep .unix (twoCalls fullDir) (.call 0) = some
      { files := fullDir, calls := [(firstCall, found), (secondCall, .listing)] } := by
    simp only [spoolStep, Option.bind_eq_bind, twoCalls, List.getElem?_cons_zero, Option.bind_some,
      step_listing _ _ hlisted hfull]
    rfl
  have h₂ : spoolStep .unix
      { files := fullDir, calls := [(firstCall, found), (secondCall, .listing)] } (.call 1) = some
      { files := fullDir, calls := [(firstCall, found), (secondCall, found)] } := by
    simp only [spoolStep, Option.bind_eq_bind, List.getElem?_cons_succ, List.getElem?_cons_zero,
      Option.bind_some, step_listing _ _ hlisted hfull]
    rfl
  have h₃ : spoolStep .unix
      { files := fullDir, calls := [(firstCall, found), (secondCall, found)] } (.call 0) = some
      { files := fullDir.erase oldest
        calls := [(firstCall, .listing), (secondCall, found)]
        log := [.evicted 0 (oldest :: rest) bytes] } := by
    simp only [spoolStep, Option.bind_eq_bind, List.getElem?_cons_zero, Option.bind_some, found,
      Call.step, hbytes]
    rfl
  have h₄ : spoolStep .unix
      { files := fullDir.erase oldest
        calls := [(firstCall, .listing), (secondCall, found)]
        log := [.evicted 0 (oldest :: rest) bytes] } (.call 1) = some
      { files := fullDir.erase oldest
        calls := [(firstCall, .listing), (secondCall, .done (.error notFound))]
        log := [.evicted 0 (oldest :: rest) bytes] } := by
    simp only [spoolStep, Option.bind_eq_bind, List.getElem?_cons_succ, List.getElem?_cons_zero,
      Option.bind_some, found, Call.step, AList.lookup_erase]
    rfl
  refine ⟨_, run_cons.2 ⟨_, h₁, run_cons.2 ⟨_, h₂, run_cons.2 ⟨_, h₃, run_cons.2 ⟨_, h₄, rfl⟩⟩⟩⟩,
    hencodes, rfl, fun hdelivers => ?_⟩
  cases hframe : encodeMessage secondCall.message with
  | ok frame => cases (hdelivers 1 secondCall _ frame rfl hframe).1
  | error e =>
    rw [hframe] at hencodes
    cases hencodes

end Samples

end Spool

end Ipc

end LlmNotch
