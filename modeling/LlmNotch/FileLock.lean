import Mathlib.Algebra.Order.Ring.Int
import Mathlib.Logic.Function.Basic
import Mathlib.Tactic.Simps.Basic
import LlmNotch.Transition

/-!
# The connector file lock

`FileLock::acquire` on one target, by any number of processes, one file-system call a step :
the parent directory, the existence check, the age check, the removal of a stale lock file,
the exclusive create, the truncation and the write of the process id. A guard that is dropped
removes whatever file has the lock path. Every call may fail, a process may be killed at any
point, and the clock moves freely; a lock file is left behind by a killed process and by an
`acquire` that fails after its create.

Lock files are told apart by the number of their `creation`. `SparesLive` says that a stale
removal does not hit the file of a process that is still between its create and its drop.
`lock_exclusive` : in runs of such steps there is at most one guard, and a drop removes its
own file; and while only holders past `staleLock` lose their file, two guards exist only once
a holder has kept its guard that long.
-/

namespace LlmNotch

/-- The errors of the connector crate. -/
inductive ConnectorError where
  | invalidRequest (detail : String)
  | planNotFound
  | planExpired
  | fileChangedSincePreview (expected actual : String)
  | lockContention
  | pathEscapesScope (path : String)
  | rollbackHashMismatch
  | partialApplyFailure
  | notFound (detail : String)
  | internal (detail : String)
  deriving DecidableEq

namespace FileLock

/-- `STALE_LOCK`, in nanoseconds. -/
def staleLock : ℤ := 120 * 1000000000

/-- A lock file : which create made it, and when it was last modified. -/
structure LockFile where
  creation : ℕ
  modified : ℤ
  deriving DecidableEq

/-- A process by the file-system call it makes next, with a guard, or after an error. -/
inductive LockCall where
  | idle
  | createParent
  | checkExists
  | checkAge
  | removeStale
  | createNew
  | truncate (creation : ℕ)
  | writePid (creation : ℕ)
  | held (creation : ℕ) (since : ℤ)
  | failed (error : ConnectorError)
  deriving DecidableEq

/-- The lock file of a process between its create and its drop. -/
def LockCall.creation : LockCall → Option ℕ
  | truncate creation | writePid creation | held creation _ => some creation
  | _ => none

structure LockState where
  file : Option LockFile
  creations : ℕ
  now : ℤ
  procs : ℕ → LockCall

/-- No lock file and no process at work. -/
def LockState.initial : LockState where
  file := none
  creations := 0
  now := 0
  procs := fun _ => .idle

/-- How a file-system call ends : with an error of the system, and whether a call that may
or may not set the modification time does. -/
structure FsChoice where
  failure : Option String
  touch : Bool

inductive LockAct where
  | acquire (pid : ℕ)
  | exec (pid : ℕ) (choice : FsChoice)
  | drop (pid : ℕ) (choice : FsChoice)
  | kill (pid : ℕ)
  | clock (now : ℤ)

namespace LockState

@[simps]
def goto (s : LockState) (pid : ℕ) (call : LockCall) : LockState :=
  { s with procs := Function.update s.procs pid call }

/-- `remove_file` on the lock path, whose result is ignored. -/
@[simps]
def removeFile (s : LockState) (c : FsChoice) : LockState :=
  { s with file := if c.failure = none then none else s.file }

/-- Set the modification time through an open file, which the path may no longer lead to. -/
@[simps]
def touch (s : LockState) (creation : ℕ) (touched : Bool) : LockState :=
  { s with
    file := s.file.map fun f =>
      if touched && f.creation = creation then { f with modified := s.now } else f }

/-- `create_new` on a free path. -/
@[simps]
def create (s : LockState) : LockState :=
  { s with file := some ⟨s.creations, s.now⟩, creations := s.creations + 1 }

/-- The age check : the file is there, was not modified in the future, and is stale. -/
def isStale (s : LockState) : Bool :=
  match s.file with
  | some f => f.modified ≤ s.now && staleLock < s.now - f.modified
  | none => false

/-- The next call of `acquire`. -/
def exec (s : LockState) (pid : ℕ) (c : FsChoice) : LockCall → Option LockState
  | .createParent =>
    match c.failure with
    | some e => some (s.goto pid (.failed (.internal ("cannot create lock parent: " ++ e))))
    | none => some (s.goto pid .checkExists)
  | .checkExists =>
    some (s.goto pid (if c.failure = none ∧ s.file.isSome then .checkAge else .createNew))
  | .checkAge =>
    some (s.goto pid (if c.failure = none ∧ s.isStale then .removeStale else .createNew))
  | .removeStale => some ((s.removeFile c).goto pid .createNew)
  | .createNew =>
    match c.failure, s.file with
    | some e, _ => some (s.goto pid (.failed (.internal ("lock create failed: " ++ e))))
    | none, some _ => some (s.goto pid (.failed .lockContention))
    | none, none => some (s.create.goto pid (.truncate s.creations))
  | .truncate creation =>
    match c.failure with
    | some e => some ((s.touch creation c.touch).goto pid
        (.failed (.internal ("lock truncate failed: " ++ e))))
    | none => some ((s.touch creation c.touch).goto pid (.writePid creation))
  | .writePid creation =>
    match c.failure with
    | some e => some ((s.touch creation c.touch).goto pid
        (.failed (.internal ("lock write failed: " ++ e))))
    | none => some ((s.touch creation true).goto pid (.held creation s.now))
  | .idle | .held .. | .failed _ => none

def step (s : LockState) : LockAct → Option LockState
  | .acquire pid =>
    match s.procs pid with
    | .idle | .failed _ => some (s.goto pid .createParent)
    | _ => none
  | .exec pid c => s.exec pid c (s.procs pid)
  | .drop pid c =>
    match s.procs pid with
    | .held .. => some ((s.removeFile c).goto pid .idle)
    | _ => none
  | .kill pid => some (s.goto pid .idle)
  | .clock now => some { s with now := now }

/-! ## What the lock promises -/

/-- At most one process has a guard. -/
def Exclusive (s : LockState) : Prop :=
  ∀ pid pid' creation creation' since since', s.procs pid = .held creation since →
    s.procs pid' = .held creation' since' → pid = pid'

/-- A guard dropped in this state finds its own lock file, or none. -/
def DropsOwn (s : LockState) : Prop :=
  ∀ pid creation since f, s.procs pid = .held creation since → s.file = some f →
    f.creation = creation

/-- A holder has kept its guard longer than `staleLock`. -/
def Overstays (s : LockState) : Prop :=
  ∃ pid creation since, s.procs pid = .held creation since ∧ staleLock < s.now - since

/-- A stale removal does not hit the file of a process between its create and its drop. -/
def SparesLive (s : LockState) : LockAct → Prop
  | .exec pid _ => s.procs pid = .removeStale → ∀ f, s.file = some f →
    ∀ other, (s.procs other).creation ≠ some f.creation
  | _ => True

/-- A stale removal does not hit the file of such a process, unless it is a holder that has
kept its guard longer than `staleLock`. -/
def SparesTimely (s : LockState) : LockAct → Prop
  | .exec pid _ => s.procs pid = .removeStale → ∀ f, s.file = some f →
    ∀ other, (s.procs other).creation = some f.creation →
      ∃ since, s.procs other = .held f.creation since ∧ staleLock < s.now - since
  | _ => True

/-! ## The owner of the lock file -/

variable {s t : LockState} {pid : ℕ} {c : FsChoice} {call : LockCall}

/-- A process between its create and its drop owns the lock file, and there is only one. -/
structure Owned (s : LockState) : Prop where
  file : ∀ pid creation, (s.procs pid).creation = some creation →
    ∃ f, s.file = some f ∧ f.creation = creation
  single : ∀ pid pid', (s.procs pid).creation ≠ none → (s.procs pid').creation ≠ none →
    pid = pid'

/-- A call that keeps its lock file, or has none, leaves the owner. -/
theorem Owned.goto (h : s.Owned) (hc : call.creation = none ∨
    call.creation = (s.procs pid).creation) : (s.goto pid call).Owned := by
  have hlive : ∀ other creation, ((s.goto pid call).procs other).creation = some creation →
      (s.procs other).creation = some creation := by
    intro other creation hother
    by_cases hpid : other = pid
    · subst hpid
      rw [goto_procs, Function.update_self] at hother
      rcases hc with hnone | hsame
      · rw [hnone] at hother
        cases hother
      · rw [← hsame, hother]
    · rwa [goto_procs, Function.update_of_ne hpid] at hother
  have hne : ∀ other, ((s.goto pid call).procs other).creation ≠ none →
      (s.procs other).creation ≠ none := by
    intro other hother
    obtain ⟨creation, hcreation⟩ := Option.ne_none_iff_exists'.1 hother
    rw [hlive other creation hcreation]
    exact Option.some_ne_none creation
  exact ⟨fun other creation ho => h.file other creation (hlive other creation ho),
    fun a b ha hb => h.single a b (hne a ha) (hne b hb)⟩

theorem Owned.touch (h : s.Owned) (creation : ℕ) (touched : Bool) :
    (s.touch creation touched).Owned := by
  refine ⟨fun other k ho => ?_, h.single⟩
  obtain ⟨f, hf, rfl⟩ := h.file other k ho
  rw [touch_file, hf]
  refine ⟨_, rfl, ?_⟩
  dsimp only
  split_ifs <;> rfl

/-- A lock file that belongs to nobody may go. -/
theorem Owned.removeFile (h : s.Owned) (c : FsChoice) (hdead : ∀ f, s.file = some f →
    ∀ other, (s.procs other).creation ≠ some f.creation) : (s.removeFile c).Owned := by
  refine ⟨fun other k ho => ?_, h.single⟩
  obtain ⟨f, hf, rfl⟩ := h.file other k ho
  exact absurd ho (hdead f hf other)

/-- On a free path the new file has the only owner. -/
theorem Owned.create (h : s.Owned) (hfree : s.file = none) (pid : ℕ) :
    (s.create.goto pid (.truncate s.creations)).Owned := by
  have hdead : ∀ other, (s.procs other).creation = none := by
    intro other
    by_contra hne
    obtain ⟨k, hk⟩ := Option.ne_none_iff_exists'.1 hne
    obtain ⟨f, hf, -⟩ := h.file other k hk
    rw [hfree] at hf
    cases hf
  have honly : ∀ other, ((s.create.goto pid (.truncate s.creations)).procs other).creation ≠ none →
      other = pid := by
    intro other ho
    by_contra hne
    rw [goto_procs, Function.update_of_ne hne] at ho
    exact ho (hdead other)
  refine ⟨fun other k ho => ?_, fun a b ha hb => (honly a ha).trans (honly b hb).symm⟩
  obtain rfl := honly other (by rw [ho]; exact Option.some_ne_none k)
  rw [goto_procs, Function.update_self] at ho
  exact ⟨_, rfl, Option.some.inj ho⟩

theorem Owned.exec (h : s.Owned) (hok : s.SparesLive (.exec pid c))
    (hstep : s.exec pid c (s.procs pid) = some t) : t.Owned := by
  cases hcall : s.procs pid with
  | idle | held | failed => simp [hcall, LockState.exec] at hstep
  | createParent =>
    simp only [hcall, LockState.exec] at hstep
    split at hstep <;> cases hstep
    · exact h.goto (Or.inl rfl)
    · exact h.goto (Or.inl rfl)
  | checkExists =>
    simp only [hcall, LockState.exec] at hstep
    cases hstep
    refine h.goto (Or.inl ?_)
    split_ifs <;> rfl
  | checkAge =>
    simp only [hcall, LockState.exec] at hstep
    cases hstep
    refine h.goto (Or.inl ?_)
    split_ifs <;> rfl
  | removeStale =>
    simp only [hcall, LockState.exec] at hstep
    cases hstep
    exact (h.removeFile c (hok hcall)).goto (Or.inl rfl)
  | createNew =>
    simp only [hcall, LockState.exec] at hstep
    split at hstep <;> cases hstep
    · exact h.goto (Or.inl rfl)
    · exact h.goto (Or.inl rfl)
    · rename_i hfree
      exact h.create hfree pid
  | truncate creation =>
    simp only [hcall, LockState.exec] at hstep
    split at hstep <;> cases hstep
    · exact (h.touch creation c.touch).goto (Or.inl rfl)
    · refine (h.touch creation c.touch).goto (Or.inr ?_)
      rw [touch_procs, hcall]
      rfl
  | writePid creation =>
    simp only [hcall, LockState.exec] at hstep
    split at hstep <;> cases hstep
    · exact (h.touch creation c.touch).goto (Or.inl rfl)
    · refine (h.touch creation true).goto (Or.inr ?_)
      rw [touch_procs, hcall]
      rfl

/-- A dropped guard belonged to the only owner, so nobody owns the file it removes. -/
theorem Owned.drop (h : s.Owned) {creation : ℕ} {since : ℤ}
    (hheld : s.procs pid = .held creation since) (c : FsChoice) :
    ((s.removeFile c).goto pid .idle).Owned := by
  have hidle : (s.goto pid .idle).Owned := h.goto (Or.inl rfl)
  refine hidle.removeFile c fun f _ other ho => ?_
  by_cases hpid : other = pid
  · subst hpid
    rw [goto_procs, Function.update_self] at ho
    cases ho
  · rw [goto_procs, Function.update_of_ne hpid] at ho
    refine hpid (h.single other pid ?_ ?_)
    · rw [ho]
      exact Option.some_ne_none _
    · rw [hheld]
      exact Option.some_ne_none _

variable {act : LockAct}

theorem Owned.step (h : s.Owned) (hok : s.SparesLive act) (hstep : s.step act = some t) :
    t.Owned := by
  cases act with
  | acquire pid =>
    simp only [LockState.step] at hstep
    split at hstep
    · cases hstep
      exact h.goto (Or.inl rfl)
    · cases hstep
      exact h.goto (Or.inl rfl)
    · cases hstep
  | exec pid c => exact h.exec hok hstep
  | drop pid c =>
    simp only [LockState.step] at hstep
    split at hstep
    · rename_i creation since hheld
      cases hstep
      exact h.drop hheld c
    · cases hstep
  | kill pid =>
    cases hstep
    exact h.goto (Or.inl rfl)
  | clock now =>
    cases hstep
    exact ⟨h.file, h.single⟩

theorem owned_initial : initial.Owned := by
  refine ⟨fun pid k h => ?_, fun pid pid' h => ?_⟩
  · cases h
  · exact absurd rfl h

theorem Owned.exclusive (h : s.Owned) : s.Exclusive := by
  intro pid pid' k k' since since' hpid hpid'
  refine h.single pid pid' ?_ ?_
  · rw [hpid]
    exact Option.some_ne_none k
  · rw [hpid']
    exact Option.some_ne_none k'

theorem Owned.dropsOwn (h : s.Owned) : s.DropsOwn := by
  intro pid k since f hpid hf
  obtain ⟨f', hf', hk⟩ := h.file pid k (by rw [hpid]; rfl)
  rw [hf] at hf'
  cases hf'
  exact hk

/-- While nobody has overstayed, sparing the timely spares all. -/
theorem sparesLive_of_timely (h : s.SparesTimely act ∧ ¬ s.Overstays) : s.SparesLive act := by
  cases act with
  | exec pid c =>
    intro hcall f hf other ho
    obtain ⟨since, hheld, hlong⟩ := h.1 hcall f hf other ho
    exact h.2 ⟨other, f.creation, since, hheld, hlong⟩
  | _ => trivial

/-- In every run : if every stale removal spares the files of processes between their create
and their drop, there is at most one guard and a drop removes its own file; if it may hit
holders past `staleLock`, there is at most one guard unless a holder has kept it that long. -/
theorem lock_exclusive (acts : List LockAct) (s : LockState)
    (hrun : run LockState.step initial acts = some s) :
    (Guarded LockState.step SparesLive initial acts → s.Exclusive ∧ s.DropsOwn) ∧
    (Guarded LockState.step SparesTimely initial acts →
      s.Exclusive ∨ ∃ u ∈ visited LockState.step initial acts, u.Overstays) := by
  have howned : Guarded LockState.step SparesLive initial acts → s.Owned := fun hg =>
    Guarded.invariant (fun _ _ _ hok ho hs => ho.step hok hs) owned_initial hg hrun
  refine ⟨fun hg => ⟨(howned hg).exclusive, (howned hg).dropsOwn⟩, fun hg => ?_⟩
  by_cases hlong : ∃ u ∈ visited LockState.step initial acts, u.Overstays
  · exact Or.inr hlong
  · push Not at hlong
    have htimely := hg.and (Guarded.of_visited hlong)
    exact Or.inl (howned (htimely.mono fun _ _ => sparesLive_of_timely)).exclusive

/-! ## Runs of a few processes -/

/-- Only processes 0 to 3 are at work. -/
def FewProcs (s : LockState) : Prop :=
  ∀ pid, 4 ≤ pid → s.procs pid = .idle

/-- The step belongs to one of these processes. -/
def isFew : LockAct → Bool
  | .acquire pid | .exec pid _ | .drop pid _ | .kill pid => pid < 4
  | .clock _ => true

theorem exec_goto (h : s.exec pid c call = some t) : ∃ u call', t = LockState.goto u pid call' ∧
    u.procs = s.procs := by
  cases call with
  | idle | held | failed => cases h
  | createParent | truncate | writePid =>
    simp only [LockState.exec] at h
    split at h
    · exact ⟨_, _, (Option.some.inj h).symm, rfl⟩
    · exact ⟨_, _, (Option.some.inj h).symm, rfl⟩
  | checkExists | checkAge | removeStale => exact ⟨_, _, (Option.some.inj h).symm, rfl⟩
  | createNew =>
    simp only [LockState.exec] at h
    split at h
    · exact ⟨_, _, (Option.some.inj h).symm, rfl⟩
    · exact ⟨_, _, (Option.some.inj h).symm, rfl⟩
    · exact ⟨_, _, (Option.some.inj h).symm, rfl⟩

theorem FewProcs.step (h : s.FewProcs) (hfew : isFew act = true) (hstep : s.step act = some t) :
    t.FewProcs := by
  have hgoto : ∀ (u : LockState) (pid : ℕ) (call : LockCall), u.procs = s.procs → pid < 4 →
      (u.goto pid call).FewProcs := by
    intro u pid call hu hpid other hother
    rw [goto_procs, Function.update_of_ne (by omega), hu]
    exact h other hother
  cases act with
  | acquire pid =>
    simp only [LockState.step] at hstep
    split at hstep
    · cases hstep
      exact hgoto s pid _ rfl (of_decide_eq_true hfew)
    · cases hstep
      exact hgoto s pid _ rfl (of_decide_eq_true hfew)
    · cases hstep
  | exec pid c =>
    obtain ⟨u, call, rfl, hu⟩ := exec_goto hstep
    exact hgoto u pid call hu (of_decide_eq_true hfew)
  | drop pid c =>
    simp only [LockState.step] at hstep
    split at hstep
    · cases hstep
      exact hgoto (s.removeFile c) pid _ rfl (of_decide_eq_true hfew)
    · cases hstep
  | kill pid =>
    cases hstep
    exact hgoto s pid _ rfl (of_decide_eq_true hfew)
  | clock now =>
    cases hstep
    exact h

/-- `SparesLive`, asked of a few processes. -/
def sparesCheck (s : LockState) (act : LockAct) : Bool :=
  isFew act && match act with
    | .exec pid _ => s.procs pid ≠ .removeStale || s.file.all fun f =>
        (List.range 4).all fun other => (s.procs other).creation ≠ some f.creation
    | _ => true

theorem sparesLive_of_check (h : s.FewProcs) (hc : s.sparesCheck act = true) :
    s.SparesLive act := by
  obtain ⟨hfew, hspares⟩ := Bool.and_eq_true_iff.1 hc
  cases act with
  | exec pid c =>
    intro hcall f hf other
    by_cases hother : other < 4
    · simp only [hcall, hf, ne_eq, not_true_eq_false, decide_false, Bool.false_or,
        Option.all_some, List.all_eq_true, List.mem_range, decide_eq_true_eq] at hspares
      exact hspares other hother
    · rw [h other (by omega)]
      exact (Option.some_ne_none _).symm
  | _ => trivial

/-- Whether one of a few processes overstays. -/
def overstaysCheck (s : LockState) : Bool :=
  (List.range 4).any fun pid => match s.procs pid with
    | .held _ since => staleLock < s.now - since
    | _ => false

theorem not_overstays_of_check (h : s.FewProcs) (hc : s.overstaysCheck = false) :
    ¬ s.Overstays := by
  rintro ⟨pid, creation, since, hheld, hlong⟩
  have hpid : pid < 4 := by
    by_contra hge
    rw [h pid (by omega)] at hheld
    cases hheld
  refine Bool.false_ne_true (hc.symm.trans (List.any_eq_true.2 ⟨pid, List.mem_range.2 hpid, ?_⟩))
  rw [hheld]
  exact decide_eq_true hlong

theorem fewProcs_initial : initial.FewProcs :=
  fun _ _ => rfl

/-! ## Two runs -/

/-- A call of process `pid` that succeeds. -/
def ok (pid : ℕ) : LockAct :=
  .exec pid ⟨none, true⟩

/-- Process 0 is killed with its guard, and process 1 takes over its stale lock file. -/
def takeOverRun : List LockAct :=
  .acquire 0 :: List.replicate 5 (ok 0) ++ [.kill 0, .clock (121 * 1000000000)] ++
    .acquire 1 :: List.replicate 7 (ok 1)

/-- A stale lock file without an owner is taken over by one process alone. -/
theorem lock_exclusive_takeOverRun :
    ∃ s, run LockState.step initial takeOverRun = some s ∧
      Guarded LockState.step SparesLive initial takeOverRun ∧
      s.procs 1 = .held 1 (121 * 1000000000) ∧ s.Exclusive ∧ s.DropsOwn := by
  have hrun : ((run LockState.step initial takeOverRun).map fun s => s.procs 1) =
      some (.held 1 (121 * 1000000000)) := by
    decide
  obtain ⟨s, hs, hheld⟩ := Option.map_eq_some_iff.1 hrun
  have hguard : Guarded LockState.step SparesLive initial takeOverRun := by
    refine Guarded.of_check sparesCheck ?_ (fun _ _ => sparesLive_of_check) fewProcs_initial ?_
    · exact fun s act t hfew hc => hfew.step (Bool.and_eq_true_iff.1 hc).1
    · decide
  exact ⟨s, hs, hguard, hheld, (lock_exclusive takeOverRun s hs).1 hguard⟩

/-- Process 0 creates its lock file and fails to write to it. Once the file is stale,
processes 1 and 2 both find it so, and process 2 removes the file that process 1 has made. -/
def racingRun : List LockAct :=
  .acquire 0 :: List.replicate 4 (ok 0) ++
    [.exec 0 ⟨some "no space left on device", false⟩, .clock (121 * 1000000000)] ++
    .acquire 1 :: List.replicate 3 (ok 1) ++ .acquire 2 :: List.replicate 3 (ok 2) ++
    List.replicate 4 (ok 1) ++ List.replicate 4 (ok 2)

/-- Two guards at once, although nobody has kept one for long; the first one dropped removes
the lock file of the second. -/
theorem two_guards_after_stale_lock :
    ∃ s, run LockState.step initial racingRun = some s ∧
      (∀ u ∈ visited LockState.step initial racingRun, ¬ u.Overstays) ∧
      ¬ s.Exclusive ∧ ¬ s.DropsOwn := by
  have hrun : ((run LockState.step initial racingRun).map fun s =>
      (s.procs 1, s.procs 2, s.file)) =
      some (.held 1 (121 * 1000000000), .held 2 (121 * 1000000000),
        some ⟨2, 121 * 1000000000⟩) := by
    decide
  obtain ⟨s, hs, hends⟩ := Option.map_eq_some_iff.1 hrun
  simp only [Prod.mk.injEq] at hends
  obtain ⟨hone, htwo, hfile⟩ := hends
  refine ⟨s, hs, ?_, fun hex => ?_, fun hown => ?_⟩
  · have hfew : Guarded LockState.step (fun _ act => isFew act = true) initial racingRun :=
      .of_decide (by decide)
    have hshort : ∀ u ∈ visited LockState.step initial racingRun, u.overstaysCheck = false := by
      have hall : ((visited LockState.step initial racingRun).all fun u =>
          !u.overstaysCheck) = true := by
        decide
      intro u hu
      simpa using List.all_eq_true.1 hall u hu
    intro u hu
    refine not_overstays_of_check ?_ (hshort u hu)
    exact Guarded.forall_visited (fun _ _ _ hok hf hstep => hf.step hok hstep) fewProcs_initial
      hfew u hu
  · exact absurd (hex 1 2 1 2 _ _ hone htwo) (by decide)
  · exact absurd (hown 1 1 _ _ hone hfile) (by decide)

end LockState

end FileLock

end LlmNotch
