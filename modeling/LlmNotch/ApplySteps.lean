import LlmNotch.ConnectorApply

/-!
# The steps of an apply

Each operation of an apply gets one specification : the checks it makes, in order, and what it
does to the disk if none of them fails or one does (`wp_durableReplace`, `wp_atomicWrite`,
`wp_createBackup`, `wp_applySingleFile`, `wp_compensateOne`). `wp_compensate` gives the `fate` of
every file that `compensate` is to put back : a step that fails leaves that file and the
earlier ones as they are.
-/

namespace LlmNotch

namespace Connector

variable {env : ApplyEnv} {plan : StoredPlan} {now : ℤ} {disk : Disk} {phase : Phase} {i n : ℕ}
  {path : DiskPath} {content : Bytes} {file : PlanFileSnapshot}

/-! ## Checks -/

@[simp] theorem firstError_nil : firstError [] = none :=
  rfl

@[simp] theorem firstError_cons (c : Option ConnectorError) (cs : List (Option ConnectorError)) :
    firstError (c :: cs) = c.or (firstError cs) := by
  cases c <;> rfl

@[simp] theorem firstError_append (cs ds : List (Option ConnectorError)) :
    firstError (cs ++ ds) = (firstError cs).or (firstError ds) :=
  List.findSome?_append

theorem wp_steps {cs : List (Option ConnectorError)} {Q : Unit → Disk → Prop}
    {E : ConnectorError → Disk → Prop} :
    wp (steps cs) disk Q E ↔
      (firstError cs = none → Q () disk) ∧ ∀ e, firstError cs = some e → E e disk := by
  unfold steps
  cases firstError cs <;> simp

/-! ## Writing -/

namespace ApplyEnv

/-- The checks of `durable_replace`. -/
def replaceChecks (env : ApplyEnv) (phase : Phase) (i : ℕ) (existed : Bool) :
    List (Option ConnectorError) :=
  if existed = false then [env.io phase i .rename "rename failed: "]
  else if env.windows = false then [env.io phase i .rename "atomic rename failed: "]
  else if env.faults.io phase i .replaceFile = none then []
  else [env.io phase i .swapOut "backup rename failed: ",
    (env.faults.io phase i .swapIn).map fun _ => .internal "atomic replace failed on Windows"]

/-- A failed replace leaves the target moved away. -/
def replaceLoses (env : ApplyEnv) (phase : Phase) (i : ℕ) (existed : Bool) : Bool :=
  existed && env.windows && (env.faults.io phase i .replaceFile).isSome &&
    (env.faults.io phase i .swapOut).isNone && (env.faults.io phase i .swapIn).isSome &&
    (env.faults.io phase i .swapBack).isSome

theorem wp_durableReplace : wp (env.durableReplace phase i path content) disk
    (fun _ d => firstError (env.replaceChecks phase i (disk.has path)) = none ∧
      d = disk.write path (some content))
    (fun e d => firstError (env.replaceChecks phase i (disk.has path)) = some e ∧
      d = if env.replaceLoses phase i (disk.has path) then disk.write path none else disk) := by
  unfold durableReplace replaceChecks replaceLoses
  simp only [wp_bind, wp_get]
  cases hhas : disk.has path with
  | false =>
    simp only [if_true, wp_bind, wp_steps, wp_set]
    exact ⟨fun h => ⟨h, trivial⟩, fun e h => ⟨h, by simp⟩⟩
  | true =>
    cases hwin : env.windows with
    | false =>
      simp only [Bool.true_eq_false, if_false, if_true, wp_bind, wp_steps, wp_set]
      exact ⟨fun h => ⟨h, trivial⟩, fun e h => ⟨h, by simp⟩⟩
    | true =>
      simp only [Bool.true_eq_false, if_false]
      cases hrep : env.faults.io phase i .replaceFile with
      | none => exact ⟨rfl, rfl⟩
      | some _ =>
        simp only [reduceCtorEq, if_false, wp_bind, wp_steps]
        cases hout : env.faults.io phase i .swapOut with
        | some _ => simp [io, hout]
        | none =>
          cases hin : env.faults.io phase i .swapIn with
          | none => simp [io, hout]
          | some _ =>
            cases hback : env.faults.io phase i .swapBack <;> simp [io, hout]

/-- The checks of `atomic_write_with_revalidate` before the replace. -/
def tempChecks (env : ApplyEnv) (phase : Phase) (i n : ℕ) : List (Option ConnectorError) :=
  [env.io phase i .createParent "create parent failed: ", env.faults.revalidate phase i n,
    env.io phase i .tempCreate "temp create failed: ",
    env.io phase i .tempWrite "temp write failed: ",
    env.io phase i .tempSync "temp sync failed: ", env.faults.revalidate phase i (n + 1)]

/-- The checks of `atomic_write_with_revalidate`. -/
def writeChecks (env : ApplyEnv) (phase : Phase) (i n : ℕ) (existed : Bool) :
    List (Option ConnectorError) :=
  env.tempChecks phase i n ++ env.replaceChecks phase i existed

theorem wp_atomicWrite : wp (env.atomicWrite phase i n path content) disk
    (fun _ d => firstError (env.writeChecks phase i n (disk.has path)) = none ∧
      d = disk.write path (some content))
    (fun e d => firstError (env.writeChecks phase i n (disk.has path)) = some e ∧
      d = if (firstError (env.tempChecks phase i n)).isNone &&
        env.replaceLoses phase i (disk.has path) then disk.write path none else disk) := by
  unfold atomicWrite writeChecks
  rw [wp_bind, wp_steps, ← tempChecks]
  refine ⟨fun hclear => wp_mono wp_durableReplace ?_ ?_, fun e he => ?_⟩
  · rintro _ d ⟨hrep, hd⟩
    exact ⟨by rw [firstError_append, hclear, hrep]; rfl, hd⟩
  · rintro e d ⟨hrep, hd⟩
    refine ⟨by rw [firstError_append, hclear, hrep]; rfl, ?_⟩
    rw [hclear, hd]
    rfl
  · exact ⟨by rw [firstError_append, he]; rfl, by rw [he]; rfl⟩

/-! ## Backups -/

/-- The checks of `persist`. -/
def persistChecks (env : ApplyEnv) (phase : Phase) (i : ℕ) : List (Option ConnectorError) :=
  [env.io phase i .journalTemp "journal temp write failed: ",
    env.io phase i .journalReplace "journal replace failed: "]

/-- The checks of `write_exclusive_file` on a free path. -/
def exclusiveChecks (env : ApplyEnv) (i : ℕ) (path : DiskPath) : List (Option ConnectorError) :=
  let failed := fun call => call ++ " failed for " ++ path.dir ++ "/" ++ path.name ++ ": "
  [env.io .apply i .createBackup (failed "exclusive create"),
    env.io .apply i .writeBackup (failed "exclusive write"),
    env.io .apply i .syncBackup (failed "exclusive sync")]

/-- The checks of `create_backup` on an existing file, for a backup path that is free. -/
def backupChecks (env : ApplyEnv) (now : ℤ) (i : ℕ) (path : DiskPath) :
    List (Option ConnectorError) :=
  [env.faults.revalidate .apply i 2, env.faults.parentChain .apply i,
    env.faults.revalidate .apply i 3, env.io .apply i .readBackup "backup read failed: "] ++
    ([env.faults.revalidate .apply i 4] ++
      (env.exclusiveChecks i (env.backupPath now i path) ++ env.persistChecks .apply i))

theorem wp_writeExclusiveFile (hfree : disk.files path = none) :
    wp (env.writeExclusiveFile i path content) disk
    (fun _ d => firstError (env.exclusiveChecks i path) = none ∧
      d = disk.write path (some content))
    (fun e d => firstError (env.exclusiveChecks i path) = some e ∧
      ∃ b, d = disk.write path b) := by
  have hhas : disk.has path = false := by
    rw [Disk.has, hfree]
    rfl
  have hsame : disk = disk.write path none := by
    unfold Disk.write
    rw [← hfree, Function.update_eq_self]
  unfold writeExclusiveFile exclusiveChecks
  simp only [wp_bind, wp_get, hhas, Bool.false_eq_true, if_false, wp_steps, wp_set,
    firstError_cons, firstError_nil, Option.or_none]
  refine ⟨fun hcreate => ⟨fun hwrite => ⟨fun hsync => ⟨?_, trivial⟩, fun e he => ⟨?_, _, rfl⟩⟩,
    fun e he => ⟨?_, _, rfl⟩⟩, fun e he => ⟨?_, _, hsame⟩⟩
  · rw [hcreate, hwrite, hsync]
    rfl
  · rw [hcreate, hwrite, he]
    rfl
  · rw [hcreate, he]
    rfl
  · rw [he]
    rfl

/-- The disk with a backup in its journal. -/
def withEntry (entry : BackupJournalEntry) (disk : Disk) : Disk :=
  { disk with journal := { disk.journal with backups := disk.journal.backups ++ [entry] } }

theorem wp_recordBackup (entry : BackupJournalEntry) : wp (env.recordBackup i entry) disk
    (fun id d => firstError (env.persistChecks .apply i) = none ∧ id = entry.id ∧
      d = { withEntry entry disk with persisted := (withEntry entry disk).journal })
    (fun e d => firstError (env.persistChecks .apply i) = some e ∧ d = withEntry entry disk) := by
  unfold recordBackup persist
  simp only [wp_bind, wp_modify, wp_steps, wp_pure]
  exact ⟨fun h => ⟨h, trivial, rfl⟩, fun e h => ⟨h, rfl⟩⟩

/-- The disk with a backup and its journal entry. -/
def withBackup (env : ApplyEnv) (plan : StoredPlan) (now : ℤ) (i : ℕ) (file : PlanFileSnapshot)
    (content : Bytes) (disk : Disk) : Disk :=
  let written := withEntry (env.backupEntry plan now i file content)
    (disk.write (env.backupPath now i file.canonicalPath) (some content))
  { written with persisted := written.journal }

/-- A failed backup changes the backup file and its own journal entry alone. -/
structure OnlyBackup (env : ApplyEnv) (now : ℤ) (i : ℕ) (path : DiskPath) (disk d : Disk) :
    Prop where
  files : ∀ p, p ≠ env.backupPath now i path → d.files p = disk.files p
  journal : ∀ id, id ≠ env.backupId i → d.journal.findBackup id = disk.journal.findBackup id

theorem OnlyBackup.refl : env.OnlyBackup now i path disk disk :=
  ⟨fun _ _ => rfl, fun _ _ => rfl⟩

theorem OnlyBackup.write (b : Option Bytes) :
    env.OnlyBackup now i path disk (disk.write (env.backupPath now i path) b) :=
  ⟨fun _ hp => Function.update_of_ne hp _ _, fun _ _ => rfl⟩

theorem findBackup_withEntry (entry : BackupJournalEntry) (id : String) :
    (withEntry entry disk).journal.findBackup id =
      (disk.journal.findBackup id).or (if entry.id = id then some entry else none) := by
  unfold withEntry JournalStore.findBackup
  rw [List.find?_append]
  congr 1
  by_cases h : entry.id = id <;> simp [h]

theorem OnlyBackup.withEntry {d : Disk} {entry : BackupJournalEntry}
    (h : env.OnlyBackup now i path disk d) (hid : entry.id = env.backupId i) :
    env.OnlyBackup now i path disk (ApplyEnv.withEntry entry d) := by
  refine ⟨h.files, fun id hne => ?_⟩
  rw [findBackup_withEntry, if_neg fun heq => hne (heq.symm.trans hid), Option.or_none]
  exact h.journal id hne

theorem wp_createBackup (hcontent : disk.files file.canonicalPath = some content)
    (hfree : disk.files (env.backupPath now i file.canonicalPath) = none) :
    wp (env.createBackup plan now i file) disk
    (fun id d => firstError (env.backupChecks now i file.canonicalPath) = none ∧
      id = env.backupId i ∧ d = env.withBackup plan now i file content disk)
    (fun e d => firstError (env.backupChecks now i file.canonicalPath) = some e ∧
      env.OnlyBackup now i file.canonicalPath disk d) := by
  unfold createBackup backupChecks
  simp only [wp_bind, wp_get]
  rw [wp_steps]
  refine ⟨fun hread => ?_, fun e he => ⟨by rw [firstError_append, he]; rfl, .refl⟩⟩
  rw [hcontent, firstError_append, hread, Option.none_or]
  simp only [wp_bind]
  rw [wp_steps]
  refine ⟨fun hreval => ?_, fun e he => ⟨by rw [firstError_append, he]; rfl, .refl⟩⟩
  rw [firstError_append, hreval, Option.none_or]
  refine wp_mono (wp_writeExclusiveFile hfree) ?_ ?_
  · rintro _ d ⟨hexcl, rfl⟩
    rw [firstError_append, hexcl, Option.none_or]
    refine wp_mono (wp_recordBackup _) ?_ ?_
    · rintro id d ⟨hpersist, rfl, rfl⟩
      exact ⟨hpersist, rfl, rfl⟩
    · rintro e d ⟨hpersist, rfl⟩
      exact ⟨hpersist, (OnlyBackup.write _).withEntry rfl⟩
  · rintro e d ⟨hexcl, b, rfl⟩
    exact ⟨by rw [firstError_append, hexcl]; rfl, .write b⟩

/-! ## One file -/

/-- The checks of `apply_single_file` before its write. -/
def beforeWriteChecks (env : ApplyEnv) (now : ℤ) (i : ℕ) (path : DiskPath) (existed : Bool) :
    List (Option ConnectorError) :=
  [env.faults.lock .apply i, env.faults.revalidate .apply i 0] ++
    ((if existed then [env.io .apply i .readCurrent "hash under lock failed: "] ++
      ([env.faults.revalidate .apply i 1] ++ env.backupChecks now i path) else []) ++
      [env.faults.revalidate .apply i 5])

/-- The checks of `apply_single_file` on a file whose hash has not changed. -/
def applyChecks (env : ApplyEnv) (now : ℤ) (i : ℕ) (path : DiskPath) (existed : Bool) :
    List (Option ConnectorError) :=
  env.beforeWriteChecks now i path existed ++ env.writeChecks .apply i 6 existed

/-- A failed write of the new text leaves the target moved away. -/
def applyLoses (env : ApplyEnv) (now : ℤ) (i : ℕ) (path : DiskPath) (existed : Bool) : Bool :=
  (firstError (env.beforeWriteChecks now i path existed)).isNone &&
    ((firstError (env.tempChecks .apply i 6)).isNone && env.replaceLoses .apply i existed)

/-- The disk before the write of a file : an existing file has its backup. -/
def backedUp (env : ApplyEnv) (plan : StoredPlan) (now : ℤ) (i : ℕ) (file : PlanFileSnapshot)
    (disk : Disk) : Disk :=
  match disk.files file.canonicalPath with
  | some content => env.withBackup plan now i file content disk
  | none => disk

/-- The result of a file that was written. -/
def appliedResult (env : ApplyEnv) (i : ℕ) (file : PlanFileSnapshot) (existed : Bool) :
    ConnectorFileApplyResult :=
  ⟨file.displayPath, .applied, if existed then some (env.backupId i) else none,
    some (env.sha256Hex (asBytes file.mergedText)), none⟩

/-- What a failed `apply_single_file` may have changed. -/
structure OnlyTarget (env : ApplyEnv) (now : ℤ) (i : ℕ) (path : DiskPath) (disk d : Disk) :
    Prop where
  files : ∀ p, p ≠ env.backupPath now i path → p ≠ path → d.files p = disk.files p
  target : d.files path =
    if env.applyLoses now i path (disk.has path) then none else disk.files path
  journal : ∀ id, id ≠ env.backupId i → d.journal.findBackup id = disk.journal.findBackup id

theorem OnlyBackup.onlyTarget {d : Disk} (h : env.OnlyBackup now i path disk d)
    (hapart : env.backupPath now i path ≠ path)
    (hfails : firstError (env.beforeWriteChecks now i path (disk.has path)) ≠ none) :
    env.OnlyTarget now i path disk d where
  files := fun p hp _ => h.files p hp
  target := by
    have hloses : env.applyLoses now i path (disk.has path) = false := by
      unfold applyLoses
      rw [Option.isNone_eq_false_iff.2 (Option.isSome_iff_ne_none.2 hfails), Bool.false_and]
    rw [hloses]
    exact h.files path hapart.symm
  journal := h.journal

theorem onlyBackup_backedUp : env.OnlyBackup now i file.canonicalPath disk
    (env.backedUp plan now i file disk) := by
  unfold backedUp
  split
  · rename_i content _
    have hentry : env.OnlyBackup now i file.canonicalPath disk
        (withEntry (env.backupEntry plan now i file content)
          (disk.write (env.backupPath now i file.canonicalPath) (some content))) :=
      (OnlyBackup.write _).withEntry rfl
    exact ⟨hentry.files, hentry.journal⟩
  · exact .refl

theorem has_backedUp (hapart : env.backupPath now i file.canonicalPath ≠ file.canonicalPath) :
    (env.backedUp plan now i file disk).has file.canonicalPath = disk.has file.canonicalPath := by
  rw [Disk.has, Disk.has, onlyBackup_backedUp.files _ hapart.symm]

/-- The write of the new text, once an existing file has its backup. -/
theorem wp_writeMerged (plan : StoredPlan) (result : ConnectorFileApplyResult)
    (hapart : env.backupPath now i file.canonicalPath ≠ file.canonicalPath)
    (hbefore : firstError (env.beforeWriteChecks now i file.canonicalPath
      (disk.has file.canonicalPath)) = env.faults.revalidate .apply i 5) :
    wp (do
      steps [env.faults.revalidate .apply i 5]
      env.atomicWrite .apply i 6 file.canonicalPath (asBytes file.mergedText)
      return result) (env.backedUp plan now i file disk)
    (fun r d => firstError (env.applyChecks now i file.canonicalPath
        (disk.has file.canonicalPath)) = none ∧ r = result ∧
      d = (env.backedUp plan now i file disk).write file.canonicalPath
        (some (asBytes file.mergedText)))
    (fun e d => firstError (env.applyChecks now i file.canonicalPath
        (disk.has file.canonicalPath)) = some e ∧
      env.OnlyTarget now i file.canonicalPath disk d) := by
  have hbacked : env.OnlyBackup now i file.canonicalPath disk
      (env.backedUp plan now i file disk) := onlyBackup_backedUp
  simp only [wp_bind, wp_pure]
  rw [wp_steps, firstError_cons, firstError_nil, Option.or_none]
  unfold applyChecks
  refine ⟨fun hreval => wp_mono wp_atomicWrite ?_ ?_, fun e he => ?_⟩
  · rintro _ d ⟨hwrite, rfl⟩
    rw [has_backedUp hapart] at hwrite
    exact ⟨by rw [firstError_append, hbefore, hreval, hwrite]; rfl, trivial, rfl⟩
  · rintro e d ⟨hwrite, rfl⟩
    rw [has_backedUp hapart] at hwrite ⊢
    refine ⟨by rw [firstError_append, hbefore, hreval, hwrite]; rfl, ?_⟩
    have hloses : env.applyLoses now i file.canonicalPath (disk.has file.canonicalPath) =
        ((firstError (env.tempChecks .apply i 6)).isNone &&
          env.replaceLoses .apply i (disk.has file.canonicalPath)) := by
      rw [applyLoses, hbefore, hreval]
      rfl
    rw [← hloses]
    refine ⟨fun p hp hne => ?_, ?_, fun id hid => ?_⟩
    · split_ifs
      · exact (Function.update_of_ne hne _ _).trans (hbacked.files p hp)
      · exact hbacked.files p hp
    · split_ifs
      · exact Function.update_self _ _ _
      · exact hbacked.files _ hapart.symm
    · split_ifs
      · exact hbacked.journal id hid
      · exact hbacked.journal id hid
  · have hfails : firstError (env.beforeWriteChecks now i file.canonicalPath
        (disk.has file.canonicalPath)) = some e := hbefore.trans he
    refine ⟨by rw [firstError_append, hfails]; rfl, hbacked.onlyTarget hapart ?_⟩
    rw [hfails]
    exact Option.some_ne_none e

theorem wp_applySingleFile (plan : StoredPlan)
    (hwrites : file.baselineText ≠ file.mergedText)
    (hhash : ∀ content, disk.files file.canonicalPath = some content →
      env.sha256Hex content = file.baselineSha256)
    (hfree : disk.files (env.backupPath now i file.canonicalPath) = none)
    (hapart : env.backupPath now i file.canonicalPath ≠ file.canonicalPath) :
    wp (env.applySingleFile plan now i file) disk
    (fun result d => firstError (env.applyChecks now i file.canonicalPath
        (disk.has file.canonicalPath)) = none ∧
      result = env.appliedResult i file (disk.has file.canonicalPath) ∧
      d = (env.backedUp plan now i file disk).write file.canonicalPath
        (some (asBytes file.mergedText)))
    (fun e d => firstError (env.applyChecks now i file.canonicalPath
        (disk.has file.canonicalPath)) = some e ∧
      env.OnlyTarget now i file.canonicalPath disk d) := by
  have hearly : ∀ e, firstError (env.beforeWriteChecks now i file.canonicalPath
      (disk.has file.canonicalPath)) = some e → ∀ d,
      env.OnlyBackup now i file.canonicalPath disk d →
      firstError (env.applyChecks now i file.canonicalPath (disk.has file.canonicalPath)) =
        some e ∧ env.OnlyTarget now i file.canonicalPath disk d := by
    intro e he d hd
    refine ⟨by rw [applyChecks, firstError_append, he]; rfl, hd.onlyTarget hapart ?_⟩
    rw [he]
    exact Option.some_ne_none e
  unfold applySingleFile currentHash
  simp only [wp_bind, wp_get]
  rw [wp_steps]
  refine ⟨fun hlock => ?_, fun e he => hearly e ?_ disk .refl⟩
  · cases hfile : disk.files file.canonicalPath with
    | none =>
      have hhas : disk.has file.canonicalPath = false := by
        rw [Disk.has, hfile]
        rfl
      have hbacked : env.backedUp plan now i file disk = disk := by
        rw [backedUp, hfile]
      have hbefore : firstError (env.beforeWriteChecks now i file.canonicalPath
          (disk.has file.canonicalPath)) = env.faults.revalidate .apply i 5 := by
        rw [beforeWriteChecks, hhas, firstError_append, hlock]
        simp
      have htail := wp_writeMerged plan (env.appliedResult i file false) hapart hbefore
      simp only [wp_bind, wp_pure, hbacked, hhas] at htail
      simp only [wp_pure, ne_eq, not_true_eq_false, if_false, wp_bind, wp_get, hhas, hbacked,
        Bool.false_eq_true, and_false, appliedResult]
      exact htail
    | some content =>
      have hhas : disk.has file.canonicalPath = true := by
        rw [Disk.has, hfile]
        rfl
      have hbacked : env.backedUp plan now i file disk =
          env.withBackup plan now i file content disk := by
        rw [backedUp, hfile]
      have hbefore : firstError (env.beforeWriteChecks now i file.canonicalPath
          (disk.has file.canonicalPath)) =
          (env.io .apply i .readCurrent "hash under lock failed: ").or
            ((env.faults.revalidate .apply i 1).or
              ((firstError (env.backupChecks now i file.canonicalPath)).or
                (env.faults.revalidate .apply i 5))) := by
        rw [beforeWriteChecks, hhas, firstError_append, hlock]
        simp
      simp only [wp_bind]
      rw [wp_steps, firstError_cons, firstError_nil, Option.or_none]
      refine ⟨fun hread => ?_, fun e he => hearly e (by rw [hbefore, he]; rfl) disk .refl⟩
      simp only [wp_pure, hhash content hfile, ne_eq, not_true_eq_false, if_false, wp_bind, wp_get,
        hhas, hwrites, not_false_eq_true, and_self, if_true]
      rw [wp_steps, firstError_cons, firstError_nil, Option.or_none]
      refine ⟨fun hreval => ?_,
        fun e he => hhas ▸ hearly e (by rw [hbefore, hread, he]; rfl) disk .refl⟩
      refine wp_mono (wp_createBackup hfile hfree) ?_ ?_
      · rintro id d ⟨hbackup, rfl, rfl⟩
        rw [hread, hreval, hbackup] at hbefore
        have htail := wp_writeMerged plan (env.appliedResult i file true) hapart hbefore
        simp only [wp_bind, wp_pure, hbacked, hhas] at htail
        simp only [hbacked, appliedResult, if_true]
        exact htail
      · rintro e d ⟨hbackup, hd⟩
        exact hhas ▸ hearly e (by rw [hbefore, hread, hreval, hbackup]; rfl) d hd
  · rw [beforeWriteChecks, firstError_append, he]
    rfl

end ApplyEnv

/-! ## Compensation -/

theorem takeWhile_reverse_plain {name : List Char} (h : '/' ∉ name) (rest : List Char) :
    (name.reverse ++ rest).takeWhile (· ≠ '/') = name.reverse ++ rest.takeWhile (· ≠ '/') := by
  refine List.takeWhile_append_of_pos fun c hc => decide_eq_true fun heq => h ?_
  rw [← heq]
  exact List.mem_reverse.1 hc

theorem afterLastSlash_append {pre name : String} (h : '/' ∉ name.toList) :
    afterLastSlash (pre ++ "/" ++ name) = name := by
  unfold afterLastSlash
  rw [String.toList_append, String.toList_append, List.reverse_append, List.reverse_append,
    takeWhile_reverse_plain h]
  simp

theorem afterLastSlash_plain {name : String} (h : '/' ∉ name.toList) :
    afterLastSlash name = name := by
  unfold afterLastSlash
  rw [← List.append_nil name.toList.reverse, takeWhile_reverse_plain h]
  simp

/-- The label of a backup leads back to its file. -/
theorem inferBackupPath_backupLabel {name : String} (h : '/' ∉ name.toList)
    (displayPath : String) :
    inferBackupPath path (backupLabel displayPath name) = path.withFileName name := by
  unfold inferBackupPath backupLabel
  split_ifs
  · rw [show "~/" ++ name = "~" ++ "/" ++ name from rfl, afterLastSlash_append h]
  · split
    · rw [afterLastSlash_append h]
    · rw [afterLastSlash_plain h]

namespace ApplyEnv

/-- The current content of the `j`-th file cannot be read, so it is not put back. -/
def undoSkips (env : ApplyEnv) (j : ℕ) : Bool :=
  (env.faults.io .restore j .readCurrent).isSome

/-- The checks of `restore_from_backup` before its write. -/
def restoreChecks (env : ApplyEnv) (j : ℕ) : List (Option ConnectorError) :=
  [env.faults.revalidate .restore j 1, env.faults.parentChain .restore j] ++
    ([env.faults.revalidate .restore j 2, env.io .restore j .readBackup "backup read failed: "] ++
      [env.faults.revalidate .restore j 3])

/-- The checks of `compensate` on the `j`-th file. -/
def undoChecks (env : ApplyEnv) (j : ℕ) : List (Option ConnectorError) :=
  [env.faults.lock .restore j, env.faults.revalidate .restore j 0] ++
    (if env.undoSkips j then [] else env.restoreChecks j ++ env.writeChecks .restore j 4 true)

/-- Putting back the `j`-th file fails and leaves it moved away. -/
def undoLoses (env : ApplyEnv) (j : ℕ) : Bool :=
  (firstError [env.faults.lock .restore j, env.faults.revalidate .restore j 0]).isNone &&
    (!env.undoSkips j && ((firstError (env.restoreChecks j)).isNone &&
      ((firstError (env.tempChecks .restore j 4)).isNone && env.replaceLoses .restore j true)))

theorem wp_restoreFromBackup {backup : BackupJournalEntry} (hhas : disk.has file.canonicalPath = true)
    (hbackup : disk.files (inferBackupPath file.canonicalPath backup.backupDisplayPath) =
      some content) (hhash : env.sha256Hex content = backup.contentSha256) :
    wp (env.restoreFromBackup i file backup) disk
    (fun _ d => firstError (env.restoreChecks i ++ env.writeChecks .restore i 4 true) = none ∧
      d = disk.write file.canonicalPath (some content))
    (fun e d => firstError (env.restoreChecks i ++ env.writeChecks .restore i 4 true) = some e ∧
      d = if (firstError (env.restoreChecks i)).isNone &&
        ((firstError (env.tempChecks .restore i 4)).isNone && env.replaceLoses .restore i true)
        then disk.write file.canonicalPath none else disk) := by
  have hearly : ∀ e, firstError (env.restoreChecks i) = some e →
      firstError (env.restoreChecks i ++ env.writeChecks .restore i 4 true) = some e ∧
      disk = if (firstError (env.restoreChecks i)).isNone &&
        ((firstError (env.tempChecks .restore i 4)).isNone && env.replaceLoses .restore i true)
        then disk.write file.canonicalPath none else disk := by
    intro e he
    rw [firstError_append, he]
    exact ⟨rfl, rfl⟩
  unfold restoreFromBackup
  simp only [wp_bind, wp_get]
  rw [wp_steps]
  refine ⟨fun hone => ?_, fun e he => hearly e (by rw [restoreChecks, firstError_append, he]; rfl)⟩
  simp only [hbackup, wp_bind]
  rw [wp_steps]
  refine ⟨fun htwo => ?_, fun e he => hearly e ?_⟩
  · simp only [hhash, ne_eq, not_true_eq_false, if_false, wp_bind]
    rw [wp_steps]
    refine ⟨fun hthree => wp_mono wp_atomicWrite ?_ ?_, fun e he => hearly e ?_⟩
    · rintro _ d ⟨hwrite, rfl⟩
      rw [hhas] at hwrite
      refine ⟨?_, rfl⟩
      rw [firstError_append, restoreChecks, firstError_append, hone, firstError_append, htwo, hthree]
      exact hwrite
    · rintro e d ⟨hwrite, rfl⟩
      have hclear : firstError (env.restoreChecks i) = none := by
        rw [restoreChecks, firstError_append, hone, firstError_append, htwo, hthree]
        rfl
      rw [hhas] at hwrite ⊢
      rw [firstError_append, hclear]
      exact ⟨hwrite, rfl⟩
    · rw [restoreChecks, firstError_append, hone, firstError_append, htwo, he]
      rfl
  · rw [restoreChecks, firstError_append, hone, firstError_append, he]
    rfl

/-- Where the backup of an applied file is. -/
def backupOf (env : ApplyEnv) (now : ℤ) (a : AppliedBackup) : DiskPath :=
  env.backupPath now a.index a.file.canonicalPath

/-- A file of the plan that was written and can be put back : its backup is where the journal
says. -/
structure BackedFile (env : ApplyEnv) (now : ℤ) (content : Bytes) (a : AppliedBackup)
    (disk : Disk) : Prop where
  target : disk.files a.file.canonicalPath = some (asBytes a.file.mergedText)
  backup : disk.files (env.backupOf now a) = some content
  entry : ∃ backup, disk.journal.findBackup a.backupId = some backup ∧
    backup.appliedHash = some (env.sha256Hex (asBytes a.file.mergedText)) ∧
    backup.contentSha256 = env.sha256Hex content ∧
    inferBackupPath a.file.canonicalPath backup.backupDisplayPath = env.backupOf now a

variable {a : AppliedBackup} {before : DiskPath → Option Bytes} {applied : List AppliedBackup}

theorem BackedFile.write (h : env.BackedFile now content a disk)
    (htarget : a.file.canonicalPath ≠ path) (hbackup : env.backupOf now a ≠ path)
    (b : Option Bytes) : env.BackedFile now content a (disk.write path b) where
  target := (Function.update_of_ne htarget _ _).trans h.target
  backup := (Function.update_of_ne hbackup _ _).trans h.backup
  entry := h.entry

theorem wp_compensateOne (hsha : ∀ bytes, env.sha256Hex bytes ≠ "")
    (h : env.BackedFile now content a disk) : wp (env.compensateOne a) disk
    (fun _ d => firstError (env.undoChecks a.index) = none ∧
      d = if env.undoSkips a.index then disk
        else disk.write a.file.canonicalPath (some content))
    (fun e d => firstError (env.undoChecks a.index) = some e ∧
      d = if env.undoLoses a.index then disk.write a.file.canonicalPath none else disk) := by
  obtain ⟨backup, hfind, happlied, hcontent, hinfer⟩ := h.entry
  have hhas : disk.has a.file.canonicalPath = true := by
    rw [Disk.has, h.target]
    rfl
  have hfile : disk.files (inferBackupPath a.file.canonicalPath backup.backupDisplayPath) =
      some content := by
    rw [hinfer, h.backup]
  unfold compensateOne undoChecks undoLoses undoSkips
  simp only [wp_bind, wp_get, hfind]
  rw [wp_steps]
  refine ⟨fun hlock => ?_, fun e he => ⟨by rw [firstError_append, he]; rfl, by rw [he]; rfl⟩⟩
  rw [hlock]
  cases hread : env.faults.io .restore a.index .readCurrent with
  | some error =>
    have hskip : ¬ some (env.sha256Hex (asBytes a.file.mergedText)) = some "" :=
      fun heq => hsha _ (Option.some.inj heq)
    simp only [happlied, h.target, hskip, if_false, wp_pure]
    exact ⟨by rw [firstError_append, hlock]; rfl, rfl⟩
  | none =>
    simp only [happlied, h.target, if_true]
    refine wp_mono (wp_restoreFromBackup hhas hfile hcontent.symm) ?_ ?_
    · rintro _ d ⟨hclear, rfl⟩
      exact ⟨by rw [firstError_append, hlock]; exact hclear, rfl⟩
    · rintro e d ⟨hfails, rfl⟩
      exact ⟨by rw [firstError_append, hlock]; exact hfails, rfl⟩

/-- Putting back the `j`-th file ends the compensation. -/
def undoAborts (env : ApplyEnv) (j : ℕ) : Bool :=
  (firstError (env.undoChecks j)).isSome

/-- What is left of an applied file after the compensation of `applied`, where `before` is its
content before the apply. -/
def fate (env : ApplyEnv) (applied : List AppliedBackup) (before : Option Bytes)
    (a : AppliedBackup) : Option Bytes :=
  if applied.any fun b => a.index < b.index && env.undoAborts b.index then
    some (asBytes a.file.mergedText)
  else if env.undoAborts a.index then
    if env.undoLoses a.index then none else some (asBytes a.file.mergedText)
  else if env.undoSkips a.index then some (asBytes a.file.mergedText)
  else before

/-- The applied files, last one first, with what is needed to put them back. -/
structure Undoable (env : ApplyEnv) (now : ℤ) (before : DiskPath → Option Bytes)
    (applied : List AppliedBackup) (disk : Disk) : Prop where
  backed : ∀ a ∈ applied, ∃ content, before a.file.canonicalPath = some content ∧
    env.BackedFile now content a disk
  order : applied.Pairwise fun a b => b.index < a.index
  distinct : applied.Pairwise fun a b => a.file.canonicalPath ≠ b.file.canonicalPath
  apart : ∀ a ∈ applied, ∀ b ∈ applied, env.backupOf now a ≠ b.file.canonicalPath

/-- Every applied file meets its fate, and nothing else changes. -/
structure Undone (env : ApplyEnv) (before : DiskPath → Option Bytes)
    (applied : List AppliedBackup) (disk d : Disk) : Prop where
  fates : ∀ a ∈ applied,
    d.files a.file.canonicalPath = env.fate applied (before a.file.canonicalPath) a
  others : ∀ p, (∀ a ∈ applied, a.file.canonicalPath ≠ p) → d.files p = disk.files p

theorem Undoable.tail {b : Option Bytes} {d : Disk}
    (h : env.Undoable now before (a :: applied) disk)
    (hd : d = disk ∨ d = disk.write a.file.canonicalPath b) :
    env.Undoable now before applied d where
  backed := by
    intro c hc
    obtain ⟨content, hbefore, hbacked⟩ := h.backed c (List.mem_cons_of_mem a hc)
    refine ⟨content, hbefore, ?_⟩
    rcases hd with rfl | rfl
    · exact hbacked
    · refine hbacked.write ?_ (h.apart c (List.mem_cons_of_mem a hc) a List.mem_cons_self) b
      exact (List.rel_of_pairwise_cons h.distinct hc).symm
  order := h.order.of_cons
  distinct := h.distinct.of_cons
  apart := fun c hc e he =>
    h.apart c (List.mem_cons_of_mem a hc) e (List.mem_cons_of_mem a he)

/-- The later files do not keep the first one of a list from being put back. -/
theorem fate_head (before : Option Bytes)
    (horder : (a :: applied).Pairwise fun a b => b.index < a.index) :
    env.fate (a :: applied) before a =
      if env.undoAborts a.index then
        if env.undoLoses a.index then none else some (asBytes a.file.mergedText)
      else if env.undoSkips a.index then some (asBytes a.file.mergedText) else before := by
  have hnone : ((a :: applied).any fun b => a.index < b.index && env.undoAborts b.index) =
      false := by
    refine List.any_eq_false.2 fun b hb => ?_
    have hle : b.index ≤ a.index := by
      rcases List.mem_cons.1 hb with rfl | hb
      · exact le_refl _
      · exact (List.rel_of_pairwise_cons horder hb).le
    simp [Nat.not_lt.2 hle]
  unfold fate
  rw [hnone]
  rfl

/-- The fate of a later file, once the first one of the list is done with. -/
theorem fate_tail {c : AppliedBackup} (before : Option Bytes)
    (horder : (a :: applied).Pairwise fun a b => b.index < a.index) (hc : c ∈ applied) :
    env.fate (a :: applied) before c =
      if env.undoAborts a.index then some (asBytes c.file.mergedText)
      else env.fate applied before c := by
  have hlt : c.index < a.index := List.rel_of_pairwise_cons horder hc
  unfold fate
  cases habort : env.undoAborts a.index with
  | true => simp [hlt, habort]
  | false => simp [habort]

theorem wp_compensate (hsha : ∀ bytes, env.sha256Hex bytes ≠ "")
    (h : env.Undoable now before applied disk) :
    wp (applied.forM env.compensateOne) disk
      (fun _ => env.Undone before applied disk) (fun _ => env.Undone before applied disk) := by
  induction applied generalizing disk with
  | nil => exact ⟨fun a ha => (by cases ha), fun _ _ => rfl⟩
  | cons a applied ih =>
    obtain ⟨content, hbefore, hbacked⟩ := h.backed a List.mem_cons_self
    have hother : ∀ c ∈ applied, c.file.canonicalPath ≠ a.file.canonicalPath := fun c hc =>
      (List.rel_of_pairwise_cons h.distinct hc).symm
    show wp (env.compensateOne a >>= fun _ => applied.forM env.compensateOne) disk _ _
    rw [wp_bind]
    refine wp_mono (wp_compensateOne hsha hbacked) ?_ ?_
    · -- the file is put back or skipped, and the rest follows
      rintro _ d ⟨hclear, hd⟩
      have habort : env.undoAborts a.index = false := by
        rw [undoAborts, hclear]
        rfl
      have hrest : ∀ t, env.Undone before applied d t → env.Undone before (a :: applied) disk t := by
        intro t ht
        have ha : t.files a.file.canonicalPath = d.files a.file.canonicalPath :=
          ht.others _ hother
        refine ⟨fun c hc => ?_, fun p hp => ?_⟩
        · rcases List.mem_cons.1 hc with rfl | hc
          · rw [ha, fate_head _ h.order, habort, hd]
            cases env.undoSkips c.index with
            | true => exact hbacked.target
            | false => exact (Function.update_self _ _ _).trans hbefore.symm
          · rw [ht.fates c hc, fate_tail _ h.order hc, habort]
            rfl
        · rw [ht.others p fun c hc => hp c (List.mem_cons_of_mem a hc), hd]
          split_ifs
          · rfl
          · exact Function.update_of_ne (hp a List.mem_cons_self).symm _ _
      have htail : env.Undoable now before applied d := by
        refine h.tail (b := some content) ?_
        rw [hd]
        split_ifs
        · exact Or.inl rfl
        · exact Or.inr rfl
      exact wp_mono (ih htail) (fun _ => hrest) (fun _ => hrest)
    · -- the compensation ends here
      rintro e d ⟨hfails, hd⟩
      have habort : env.undoAborts a.index = true := by
        rw [undoAborts, hfails]
        rfl
      have hframe : ∀ p, a.file.canonicalPath ≠ p → d.files p = disk.files p := by
        intro p hp
        rw [hd]
        split_ifs
        · exact Function.update_of_ne hp.symm _ _
        · rfl
      refine ⟨fun c hc => ?_, fun p hp => hframe p (hp a List.mem_cons_self)⟩
      rcases List.mem_cons.1 hc with rfl | hc
      · rw [fate_head _ h.order, habort, hd]
        cases env.undoLoses c.index with
        | true => exact Function.update_self _ _ _
        | false => exact hbacked.target
      · obtain ⟨_, -, hc'⟩ := h.backed c (List.mem_cons_of_mem a hc)
        rw [hframe _ (hother c hc).symm, fate_tail _ h.order hc, habort]
        exact hc'.target

end ApplyEnv

end Connector

end LlmNotch
