import LlmNotch.ConnectorMerge
import LlmNotch.FileLock
import LlmNotch.Protocol
import LlmNotch.StateExcept

/-!
# Applying a connector plan

`apply_plan` writes the files of a stored plan one after the other. An existing file is first
copied to a backup, which is recorded in the journal; the new text is written to a temporary
file that replaces the target. When a file fails, `compensate` puts the earlier ones back from
their backups, last one first, and the call fails.

The disk is a map from paths to contents. Every step may fail : `Faults` gives the error of each
step of each file, or none. A run of steps that leave the files alone is one `steps`, which ends
at the first that fails. Locks and temporary files are kept apart from the files of the disk,
and what a file system check may find (a link, a moved parent) is a fault of that check. The
names and ids made from a `Uuid`, the time stamp and `sha256_hex` are parameters.
-/

namespace LlmNotch

namespace Connector

/-! ## Files and journal -/

/-- A file by its directory and its name. -/
structure DiskPath where
  dir : String
  name : String
  deriving DecidableEq

/-- `with_file_name`. -/
def DiskPath.withFileName (path : DiskPath) (name : String) : DiskPath :=
  { path with name := name }

abbrev Bytes := List UInt8

def asBytes (text : String) : Bytes :=
  text.toUTF8.data.toList

inductive ConnectorScope where
  | user | project
  deriving DecidableEq

inductive BackupJournalOperation where
  | create | restore | recompute
  deriving DecidableEq

/-- A backup made before a file was overwritten. -/
structure BackupJournalEntry where
  id : String
  planId : Option String
  source : AgentSource
  displayPath : String
  backupDisplayPath : String
  contentSha256 : String
  appliedHash : Option String
  operation : BackupJournalOperation
  recordedAtMs : ℤ
  deriving DecidableEq

inductive ConnectorFileOutcome where
  | applied | skipped | failed
  deriving DecidableEq

structure ConnectorFileApplyResult where
  displayPath : String
  outcome : ConnectorFileOutcome
  backupJournalId : Option String
  appliedHash : Option String
  message : Option String
  deriving DecidableEq

/-- A completed apply. -/
structure ConnectorJournalEntry where
  id : String
  planId : String
  source : AgentSource
  scope : ConnectorScope
  startedAtMs : ℤ
  completedAtMs : Option ℤ
  fileResults : List ConnectorFileApplyResult
  rollbackAvailable : Bool
  deriving DecidableEq

structure JournalStore where
  backups : List BackupJournalEntry
  applies : List ConnectorJournalEntry
  deriving DecidableEq

def JournalStore.findBackup (journal : JournalStore) (id : String) : Option BackupJournalEntry :=
  journal.backups.find? fun entry => entry.id = id

/-- The files, the journal in memory and the journal file. -/
structure Disk where
  files : DiskPath → Option Bytes
  journal : JournalStore
  persisted : JournalStore

def Disk.write (disk : Disk) (path : DiskPath) (content : Option Bytes) : Disk :=
  { disk with files := Function.update disk.files path content }

def Disk.has (disk : Disk) (path : DiskPath) : Bool :=
  (disk.files path).isSome

/-! ## Plans -/

structure PlanFileSnapshot where
  canonicalPath : DiskPath
  displayPath : String
  baselineSha256 : String
  baselineText : String
  mergedText : String
  isNewFile : Bool
  backupDisplayPath : String

/-- A plan with what its files held at the preview. -/
structure StoredPlan where
  planId : String
  source : AgentSource
  scope : ConnectorScope
  operation : PlanOperation
  expiresAtMs : ℤ
  files : List PlanFileSnapshot

structure ConnectorApplyResult where
  planId : String
  source : AgentSource
  fileResults : List ConnectorFileApplyResult
  deriving DecidableEq

/-! ## Steps that fail -/

/-- Whether a file is being applied, put back, or the whole apply is being recorded. -/
inductive Phase where
  | apply | restore | record
  deriving DecidableEq

/-- The calls of the system. -/
inductive IoOp where
  | readCurrent | readBackup | createBackup | writeBackup | syncBackup | journalTemp
  | journalReplace | createParent | tempCreate | tempWrite | tempSync | rename | replaceFile
  | swapOut | swapIn | swapBack
  deriving DecidableEq

/-- The errors of the steps of each file, by its place in the plan. -/
structure Faults where
  hardlink : ℕ → Option ConnectorError
  preflightHash : ℕ → Option String
  lock : Phase → ℕ → Option ConnectorError
  revalidate : Phase → ℕ → ℕ → Option ConnectorError
  parentChain : Phase → ℕ → Option ConnectorError
  io : Phase → ℕ → IoOp → Option String

/-- No step fails. -/
def Faults.clear : Faults where
  hardlink := fun _ => none
  preflightHash := fun _ => none
  lock := fun _ _ => none
  revalidate := fun _ _ _ => none
  parentChain := fun _ _ => none
  io := fun _ _ _ => none

/-- What an apply gets from outside. -/
structure ApplyEnv where
  sha256Hex : Bytes → String
  backupTimestamp : ℤ → String
  windows : Bool
  backupUuid : ℕ → String
  backupId : ℕ → String
  journalId : String
  faults : Faults

abbrev ApplyM := EStateM ConnectorError Disk

/-- The first error of some steps. -/
def firstError (checks : List (Option ConnectorError)) : Option ConnectorError :=
  checks.findSome? id

/-- Steps that leave the disk alone, up to the first that fails. -/
def steps (checks : List (Option ConnectorError)) : ApplyM Unit :=
  match firstError checks with
  | some error => throw error
  | none => pure ()

namespace ApplyEnv

/-- A call of the system, with the text of its error. -/
def io (env : ApplyEnv) (phase : Phase) (i : ℕ) (op : IoOp) (text : String) :
    Option ConnectorError :=
  (env.faults.io phase i op).map fun error => .internal (text ++ error)

/-! ## Writing -/

/-- `durable_replace` with the new content in the temporary file. On Windows a failed
`ReplaceFileW` moves the target away, moves the new file in, and moves the target back if
that fails. -/
def durableReplace (env : ApplyEnv) (phase : Phase) (i : ℕ) (path : DiskPath) (content : Bytes) :
    ApplyM Unit := do
  let disk ← get
  if disk.has path = false then
    steps [env.io phase i .rename "rename failed: "]
    set (disk.write path (some content))
  else if env.windows = false then
    steps [env.io phase i .rename "atomic rename failed: "]
    set (disk.write path (some content))
  else if env.faults.io phase i .replaceFile = none then
    set (disk.write path (some content))
  else
    steps [env.io phase i .swapOut "backup rename failed: "]
    if env.faults.io phase i .swapIn = none then
      set (disk.write path (some content))
    else
      if env.faults.io phase i .swapBack ≠ none then
        set (disk.write path none)
      throw (.internal "atomic replace failed on Windows")

/-- `atomic_write_with_revalidate`, whose revalidations are the ones from number `n` on. -/
def atomicWrite (env : ApplyEnv) (phase : Phase) (i n : ℕ) (path : DiskPath) (content : Bytes) :
    ApplyM Unit := do
  steps [env.io phase i .createParent "create parent failed: ",
    env.faults.revalidate phase i n,
    env.io phase i .tempCreate "temp create failed: ",
    env.io phase i .tempWrite "temp write failed: ",
    env.io phase i .tempSync "temp sync failed: ",
    env.faults.revalidate phase i (n + 1)]
  env.durableReplace phase i path content

/-- `persist` : the journal in memory becomes the journal file. The replace is one step that keeps
the old file when it fails : the swap of `durable_replace` on Windows, which can fail between its
renames and lose the journal file, is modelled for targets only. -/
def persist (env : ApplyEnv) (phase : Phase) (i : ℕ) : ApplyM Unit := do
  steps [env.io phase i .journalTemp "journal temp write failed: ",
    env.io phase i .journalReplace "journal replace failed: "]
  modify fun disk => { disk with persisted := disk.journal }

def recordBackup (env : ApplyEnv) (i : ℕ) (entry : BackupJournalEntry) : ApplyM String := do
  modify fun disk => { disk with
    journal := { disk.journal with backups := disk.journal.backups ++ [entry] } }
  env.persist .apply i
  return entry.id

def recordApply (env : ApplyEnv) (entry : ConnectorJournalEntry) : ApplyM Unit := do
  modify fun disk => { disk with
    journal := { disk.journal with applies := disk.journal.applies ++ [entry] } }
  env.persist .record 0

/-! ## Backups -/

/-- The name of the backup of the `i`-th file. -/
def backupFileName (env : ApplyEnv) (now : ℤ) (i : ℕ) (path : DiskPath) : String :=
  path.name ++ ".llm-notch.bak." ++ env.backupTimestamp now ++ "." ++ env.backupUuid i

/-- `secure_backup_path`. -/
def backupPath (env : ApplyEnv) (now : ℤ) (i : ℕ) (path : DiskPath) : DiskPath :=
  path.withFileName (env.backupFileName now i path)

end ApplyEnv

/-- The part of a text before its last slash, if it has one. -/
def beforeLastSlash (text : String) : Option String :=
  if '/' ∈ text.toList then
    some (String.ofList ((text.toList.reverse.dropWhile (· ≠ '/')).drop 1).reverse)
  else none

/-- The part of a text after its last slash. -/
def afterLastSlash (text : String) : String :=
  String.ofList (text.toList.reverse.takeWhile (· ≠ '/')).reverse

/-- The label of a backup, next to the label of its file. -/
def backupLabel (displayPath backupFileName : String) : String :=
  if displayPath.startsWith "~/" then "~/" ++ backupFileName
  else match beforeLastSlash displayPath with
    | some parent => parent ++ "/" ++ backupFileName
    | none => backupFileName

/-- `infer_backup_path`. -/
def inferBackupPath (target : DiskPath) (backupDisplayPath : String) : DiskPath :=
  target.withFileName (afterLastSlash backupDisplayPath)

namespace ApplyEnv

/-- `write_exclusive_file`. -/
def writeExclusiveFile (env : ApplyEnv) (i : ℕ) (path : DiskPath) (content : Bytes) :
    ApplyM Unit := do
  let disk ← get
  if disk.has path then
    throw (.pathEscapesScope
      ("exclusive create rejected: " ++ path.dir ++ "/" ++ path.name ++ " already exists"))
  let failed := fun call => call ++ " failed for " ++ path.dir ++ "/" ++ path.name ++ ": "
  steps [env.io .apply i .createBackup (failed "exclusive create")]
  set (disk.write path (some []))
  steps [env.io .apply i .writeBackup (failed "exclusive write")]
  set (disk.write path (some content))
  steps [env.io .apply i .syncBackup (failed "exclusive sync")]

/-- The journal entry of the backup of a file. -/
def backupEntry (env : ApplyEnv) (plan : StoredPlan) (now : ℤ) (i : ℕ) (file : PlanFileSnapshot)
    (content : Bytes) : BackupJournalEntry where
  id := env.backupId i
  planId := some plan.planId
  source := plan.source
  displayPath := file.displayPath
  backupDisplayPath := backupLabel file.displayPath (env.backupFileName now i file.canonicalPath)
  contentSha256 := env.sha256Hex content
  appliedHash := some (env.sha256Hex (asBytes file.mergedText))
  operation := .create
  recordedAtMs := now

def createBackup (env : ApplyEnv) (plan : StoredPlan) (now : ℤ) (i : ℕ)
    (file : PlanFileSnapshot) : ApplyM String := do
  steps [env.faults.revalidate .apply i 2, env.faults.parentChain .apply i,
    env.faults.revalidate .apply i 3, env.io .apply i .readBackup "backup read failed: "]
  let disk ← get
  match disk.files file.canonicalPath with
  | none => throw (.internal "backup read failed: No such file or directory (os error 2)")
  | some content =>
    steps [env.faults.revalidate .apply i 4]
    env.writeExclusiveFile i (env.backupPath now i file.canonicalPath) content
    env.recordBackup i (env.backupEntry plan now i file content)

/-! ## One file -/

/-- A file must be as it was at the preview. -/
def preflight (env : ApplyEnv) (i : ℕ) (file : PlanFileSnapshot) : ApplyM Unit := do
  let disk ← get
  match disk.files file.canonicalPath with
  | some content =>
    steps [env.faults.hardlink i,
      (env.faults.preflightHash i).map fun error => .internal ("hash failed: " ++ error)]
    if env.sha256Hex content ≠ file.baselineSha256 then
      throw (.fileChangedSincePreview file.baselineSha256 (env.sha256Hex content))
  | none =>
    if file.isNewFile = false then
      throw (.fileChangedSincePreview file.baselineSha256
        (env.sha256Hex (asBytes file.baselineText)))

/-- The hash of a file read under its lock; a file that is not there counts as unchanged. -/
def currentHash (env : ApplyEnv) (i : ℕ) (file : PlanFileSnapshot) : ApplyM String := do
  let disk ← get
  match disk.files file.canonicalPath with
  | some content =>
    steps [env.io .apply i .readCurrent "hash under lock failed: "]
    return env.sha256Hex content
  | none => return file.baselineSha256

/-- Check that a file is as it was at the preview, back it up and write it. -/
def applySingleFile (env : ApplyEnv) (plan : StoredPlan) (now : ℤ) (i : ℕ)
    (file : PlanFileSnapshot) : ApplyM ConnectorFileApplyResult := do
  steps [env.faults.lock .apply i, env.faults.revalidate .apply i 0]
  let current ← env.currentHash i file
  if current ≠ file.baselineSha256 then
    throw (.fileChangedSincePreview file.baselineSha256 current)
  let disk ← get
  let backupId ←
    if file.baselineText ≠ file.mergedText ∧ disk.has file.canonicalPath then do
      steps [env.faults.revalidate .apply i 1]
      let id ← env.createBackup plan now i file
      pure (some id)
    else pure none
  steps [env.faults.revalidate .apply i 5]
  env.atomicWrite .apply i 6 file.canonicalPath (asBytes file.mergedText)
  return ⟨file.displayPath, .applied, backupId,
    some (env.sha256Hex (asBytes file.mergedText)), none⟩

/-! ## Compensation -/

def restoreFromBackup (env : ApplyEnv) (i : ℕ) (file : PlanFileSnapshot)
    (backup : BackupJournalEntry) : ApplyM Unit := do
  steps [env.faults.revalidate .restore i 1, env.faults.parentChain .restore i]
  let disk ← get
  match disk.files (inferBackupPath file.canonicalPath backup.backupDisplayPath) with
  | none => throw (.notFound "backup file missing")
  | some content =>
    steps [env.faults.revalidate .restore i 2,
      env.io .restore i .readBackup "backup read failed: "]
    if env.sha256Hex content ≠ backup.contentSha256 then
      throw .rollbackHashMismatch
    steps [env.faults.revalidate .restore i 3]
    env.atomicWrite .restore i 4 file.canonicalPath content

/-- An applied file with its place in the plan and the id of its backup. -/
structure AppliedBackup where
  index : ℕ
  file : PlanFileSnapshot
  backupId : String

/-- The loop body of `compensate`. A current content that cannot be read has no hash. -/
def compensateOne (env : ApplyEnv) (applied : AppliedBackup) : ApplyM Unit := do
  let disk ← get
  match disk.journal.findBackup applied.backupId with
  | none => pure ()
  | some backup =>
    steps [env.faults.lock .restore applied.index, env.faults.revalidate .restore applied.index 0]
    let current := match disk.files applied.file.canonicalPath,
        env.faults.io .restore applied.index .readCurrent with
      | some content, none => env.sha256Hex content
      | _, _ => ""
    if backup.appliedHash = some current then
      env.restoreFromBackup applied.index applied.file backup

def compensate (env : ApplyEnv) (applied : List AppliedBackup) : ApplyM Unit :=
  applied.reverse.forM env.compensateOne

/-! ## The whole plan -/

/-- The loop of `apply_plan` over its files, from place `i` on. -/
def applyFiles (env : ApplyEnv) (plan : StoredPlan) (now : ℤ) :
    ℕ → List PlanFileSnapshot → List ConnectorFileApplyResult → List AppliedBackup →
      ApplyM (List ConnectorFileApplyResult)
  | _, [], results, _ => pure results
  | i, file :: rest, results, applied =>
    if file.baselineText = file.mergedText then
      env.applyFiles plan now (i + 1) rest
        (results ++ [⟨file.displayPath, .skipped, none, some file.baselineSha256,
          some "No changes needed"⟩]) applied
    else do
      match ← attempt (env.applySingleFile plan now i file) with
      | .ok result =>
        env.applyFiles plan now (i + 1) rest (results ++ [result])
          (applied ++ (result.backupJournalId.map fun id => ⟨i, file, id⟩).toList)
      | .error _ =>
        env.compensate applied
        throw .partialApplyFailure

/-- The checks before the first write, from place `i` on. -/
def preflightFiles (env : ApplyEnv) : ℕ → List PlanFileSnapshot → ApplyM Unit
  | _, [] => pure ()
  | i, file :: rest => do
    env.preflight i file
    env.preflightFiles (i + 1) rest

/-- Check all files of a plan, apply them and record the result. -/
def applyPlan (env : ApplyEnv) (plan : StoredPlan) (now : ℤ) : ApplyM ConnectorApplyResult := do
  if plan.files.isEmpty then
    return ⟨plan.planId, plan.source, []⟩
  env.preflightFiles 0 plan.files
  let results ← env.applyFiles plan now 0 plan.files [] []
  env.recordApply ⟨env.journalId, plan.planId, plan.source, plan.scope, now, some now, results,
    results.any fun result => result.outcome = .applied⟩
  return ⟨plan.planId, plan.source, results⟩

end ApplyEnv

end Connector

end LlmNotch
