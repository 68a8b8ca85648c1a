import LlmNotch.ConnectorApply
import LlmNotch.Utf8

/-!
# The connector manager

A preview reads the configuration file of an agent and stores a plan for it, under a new id and
for five minutes. `preview_rollback` makes a plan from a backup of the journal : it looks for the
file at the user scope path of the backup's agent and for the backup next to it. If the file
still has the content of the apply the plan puts the backup in its place, else it removes the
managed hooks. `apply` runs a stored plan.

`ManagerConfig` is what stays the same between calls, with the parts of other crates :
`sha256_hex`, the JSON reader and printer, and the templates as they are on the disk. `Call` is
what one call gets from outside : the time, new ids, and the steps that fail. `step` runs one
call of the manager, whatever it returns; files may also be changed from outside, and a restart
loads the journal and forgets the plans.
-/

namespace LlmNotch

namespace Connector

/-! ## Adapters and scopes -/

/-- A file relative to a scope root, by its directory and its name. -/
structure TargetFile where
  relativeDir : String
  fileName : String

structure AdapterDescriptor where
  source : AgentSource
  userTarget : TargetFile
  projectTarget : TargetFile
  format : ConfigFormat

def AdapterDescriptor.targetFor (adapter : AdapterDescriptor) : ConnectorScope → TargetFile
  | .user => adapter.userTarget
  | .project => adapter.projectTarget

/-- The adapter of an agent whose file has one relative path in both scopes. -/
def sameTarget (source : AgentSource) (dir name : String) (format : ConfigFormat) :
    AdapterDescriptor :=
  ⟨source, ⟨dir, name⟩, ⟨dir, name⟩, format⟩

/-- `AdapterRegistry::get`. -/
def registryGet : AgentSource → Option AdapterDescriptor
  | .cursor => some (sameTarget .cursor ".cursor" "hooks.json" .hooksJson)
  | .claudeCode => some (sameTarget .claudeCode ".claude" "settings.json" .claudeSettings)
  | .codex => some (sameTarget .codex ".codex" "hooks.json" .hooksJson)
  | .gemini => some (sameTarget .gemini ".gemini" "settings.json" .claudeSettings)
  | .qwen => some (sameTarget .qwen ".qwen" "settings.json" .claudeSettings)
  | .antigravityCli => some ⟨.antigravityCli, ⟨".gemini/antigravity-cli", "hooks.json"⟩,
      ⟨".agents", "hooks.json"⟩, .antigravityNamedHooks⟩
  | .copilotCli => some ⟨.copilotCli, ⟨".copilot/hooks", "llm-notch.json"⟩,
      ⟨".github/hooks", "llm-notch.json"⟩, .hooksJson⟩
  | .generic | .unknown => none

structure ScopeRoot where
  canonical : String
  displayPrefix : String

/-- The path of a target under the root; what its checks may find is a fault. -/
def ScopeRoot.resolve (root : ScopeRoot) (target : TargetFile) : DiskPath :=
  ⟨root.canonical ++ "/" ++ target.relativeDir, target.fileName⟩

def ScopeRoot.displayPath (root : ScopeRoot) (target : TargetFile) : String :=
  root.displayPrefix ++ "/" ++ target.relativeDir ++ "/" ++ target.fileName

/-! ## Calls -/

/-- What stays the same between the calls. -/
structure ManagerConfig where
  workspaceRoot : Option String
  userScopeRoot : Option String
  homeDir : Option String
  canonicalize : String → String
  windows : Bool
  sha256Hex : Bytes → String
  backupTimestamp : ℤ → String
  loadTemplate : AgentSource → Except String Json
  fromStr : String → Option Json
  prettyJson : Json → String

/-- The errors of the steps of a preview. -/
structure PreviewFaults where
  validateRoot : Option ConnectorError
  resolveTarget : Option ConnectorError
  hashCurrent : Option String
  readBackup : Option String
  resolve : Option ConnectorError
  rejectHardlink : Option ConnectorError
  readText : Option String

/-- No step of a preview fails. -/
def PreviewFaults.clear : PreviewFaults :=
  ⟨none, none, none, none, none, none, none⟩

/-- What one call gets from outside. -/
structure Call where
  now : ℤ
  planId : String
  backupUuid : ℕ → String
  backupId : ℕ → String
  journalId : String
  faults : Faults
  previewFaults : PreviewFaults

structure Manager where
  disk : Disk
  plans : String → Option StoredPlan

/-- A manager that has just been started. -/
def Manager.new (disk : Disk) : Manager where
  disk := { disk with journal := disk.persisted }
  plans := fun _ => none

/-- `PlanStore::insert`. -/
def Manager.insert (manager : Manager) (plan : StoredPlan) : Manager :=
  { manager with plans := Function.update manager.plans plan.planId (some plan) }

/-- `PlanStore::remove`. -/
def Manager.remove (manager : Manager) (planId : String) : Manager :=
  { manager with plans := Function.update manager.plans planId none }

/-- `PlanStore::get_valid`. -/
def Manager.getValid (manager : Manager) (planId : String) (now : ℤ) :
    Except ConnectorError StoredPlan :=
  match manager.plans planId with
  | none => .error .planNotFound
  | some plan => if plan.expiresAtMs ≤ now then .error .planExpired else .ok plan

/-- `CONNECTOR_PLAN_TTL_MS`. -/
def planTtlMs : ℤ := 300000

def planExpiresAt (now : ℤ) : ℤ := now + planTtlMs

/-- `backup_display_path`. -/
def backupDisplayPath (displayPath timestamp : String) : String :=
  displayPath ++ ".llm-notch.bak." ++ timestamp

/-- Steps that only fail. -/
def checks (faults : List (Option ConnectorError)) : Except ConnectorError Unit :=
  match firstError faults with
  | some error => .error error
  | none => .ok ()

namespace ManagerConfig

/-! ## Previews -/

/-- The root of a scope that passes its checks. -/
def rootOf (config : ManagerConfig) : ConnectorScope → Except ConnectorError ScopeRoot
  | .user => match config.userScopeRoot, config.homeDir with
    | some root, _ => .ok ⟨config.canonicalize root, config.canonicalize root⟩
    | none, some home => .ok ⟨config.canonicalize home, "~"⟩
    | none, none => .error (.internal "home directory unavailable")
  | .project => match config.workspaceRoot with
    | some root => .ok ⟨config.canonicalize root, config.canonicalize root⟩
    | none => .error (.invalidRequest "project scope requires workspace root")

def scopeRoot (config : ManagerConfig) (call : Call) (scope : ConnectorScope) :
    Except ConnectorError ScopeRoot := do
  let root ← config.rootOf scope
  checks [call.previewFaults.validateRoot]
  return root

def readBaseline (config : ManagerConfig) (call : Call) (disk : Disk) (path : DiskPath) :
    Except ConnectorError (String × Json × Bool) :=
  match disk.files path with
  | none => .ok ("\x7b\x7d", .obj [], true)
  | some bytes => match call.previewFaults.readText, Utf8.decode bytes with
    | some error, _ => .error (.internal ("read baseline failed: " ++ error))
    | none, none => .error (.internal "read baseline failed: stream did not contain valid UTF-8")
    | none, some text => .ok (text, (config.fromStr text).getD (.obj []), false)

/-- `build_preview` : the plan to edit the file of an adapter. -/
def buildPreview (config : ManagerConfig) (call : Call) (adapter : AdapterDescriptor)
    (scope : ConnectorScope) (operation : PlanOperation) (root : ScopeRoot) (disk : Disk) :
    Except ConnectorError StoredPlan := do
  let target := adapter.targetFor scope
  let path := root.resolve target
  checks [call.previewFaults.resolve,
    if disk.has path then call.previewFaults.rejectHardlink else none]
  let template ← (config.loadTemplate adapter.source).mapError fun error =>
    .internal ("template read failed: " ++ error)
  let (text, baseline, isNewFile) ← config.readBaseline call disk path
  let (merged, _) ← (Connector.buildPreview adapter.format operation baseline template).mapError
    .invalidRequest
  let mergedText := config.prettyJson merged
  return {
    planId := call.planId
    source := adapter.source
    scope := scope
    operation := operation
    expiresAtMs := planExpiresAt call.now
    files := [{
      canonicalPath := path
      displayPath := root.displayPath target
      baselineSha256 := config.sha256Hex (asBytes text)
      baselineText := text
      mergedText := mergedText
      isNewFile := isNewFile
      backupDisplayPath := if text = mergedText then "" else
        backupDisplayPath (root.displayPath target) (config.backupTimestamp call.now) }] }

/-- `build_exact_restore_preview`. A current content that is no text, or cannot be read, gives
an empty baseline. -/
def buildExactRestorePreview (call : Call) (backup : BackupJournalEntry) (root : ScopeRoot)
    (target : TargetFile) (currentHash backupText : String) (disk : Disk) : StoredPlan where
  planId := call.planId
  source := backup.source
  scope := .user
  operation := .rollback
  expiresAtMs := planExpiresAt call.now
  files := [{
    canonicalPath := root.resolve target
    displayPath := root.displayPath target
    baselineSha256 := currentHash
    baselineText := match call.previewFaults.readText with
      | some _ => ""
      | none => ((disk.files (root.resolve target)).bind Utf8.decode).getD ""
    mergedText := backupText
    isNewFile := false
    backupDisplayPath := backup.backupDisplayPath }]

/-- The hash of the current content, or an empty one if there is no file. -/
def hashCurrent (config : ManagerConfig) (call : Call) (disk : Disk) (path : DiskPath) :
    Except ConnectorError String :=
  match disk.files path with
  | none => .ok ""
  | some content => do
    checks [call.previewFaults.hashCurrent.map fun error =>
      .internal ("hash current failed: " ++ error)]
    return config.sha256Hex content

/-- `preview_rollback` of `rollback.rs`. -/
def rollbackPlan (config : ManagerConfig) (call : Call) (root : ScopeRoot) (backupId : String)
    (disk : Disk) : Except ConnectorError StoredPlan := do
  let some backup := disk.journal.findBackup backupId
    | .error (.notFound ("backup " ++ backupId))
  let some adapter := registryGet backup.source
    | .error (.notFound "adapter")
  let target := adapter.targetFor .user
  checks [call.previewFaults.resolveTarget]
  let path := root.resolve target
  let currentHash ← config.hashCurrent call disk path
  let some content := disk.files (inferBackupPath path backup.backupDisplayPath)
    | .error (.notFound "backup file missing")
  checks [call.previewFaults.readBackup.map fun error =>
    .internal ("read backup failed: " ++ error)]
  if config.sha256Hex content ≠ backup.contentSha256 then
    .error .rollbackHashMismatch
  else if backup.appliedHash = some currentHash then
    return buildExactRestorePreview call backup root target currentHash (Utf8.lossy content) disk
  else config.buildPreview call adapter .user .remove root disk

/-! ## The manager -/

abbrev ManagerM := EStateM ConnectorError Manager

/-- Store a plan that was made. -/
def store (plan : Except ConnectorError StoredPlan) : ManagerM StoredPlan := do
  let plan ← ofResult plan
  modify fun manager => manager.insert plan
  return plan

/-- `preview_install`, `preview_remove` and `preview_repair`. -/
def preview (config : ManagerConfig) (call : Call) (source : AgentSource) (scope : ConnectorScope)
    (operation : PlanOperation) : ManagerM StoredPlan := do
  let manager ← get
  store (match registryGet source with
    | none => .error (.notFound ("unsupported source: " ++ source.debug))
    | some adapter => do
      let root ← config.scopeRoot call scope
      config.buildPreview call adapter scope operation root manager.disk)

def previewRollback (config : ManagerConfig) (call : Call) (backupId : String) :
    ManagerM StoredPlan := do
  let manager ← get
  store (do
    let root ← config.scopeRoot call .user
    config.rollbackPlan call root backupId manager.disk)

/-- The files of the plan that were selected, by their display paths. -/
def selectFiles (plan : StoredPlan) : Option (List String) → Except ConnectorError StoredPlan
  | none => .ok plan
  | some selected =>
    match selected.find? fun path => !(plan.files.any fun file => file.displayPath = path) with
    | some path => .error (.invalidRequest ("selected path not in plan: " ++ path))
    | none =>
      let files := plan.files.filter fun file => file.displayPath ∈ selected
      if files.isEmpty then .error (.invalidRequest "no files selected for apply")
      else .ok { plan with files := files }

/-- What `apply_plan` gets in a call. -/
def applyEnv (config : ManagerConfig) (call : Call) : ApplyEnv where
  sha256Hex := config.sha256Hex
  backupTimestamp := config.backupTimestamp
  windows := config.windows
  backupUuid := call.backupUuid
  backupId := call.backupId
  journalId := call.journalId
  faults := call.faults

/-- Run a program on the disk. -/
def onDisk {α : Type} (m : ApplyM α) : ManagerM α :=
  zoom Manager.disk (fun manager disk => { manager with disk := disk }) m

def apply (config : ManagerConfig) (call : Call) (planId : String)
    (selected : Option (List String)) : ManagerM ConnectorApplyResult := do
  let manager ← get
  let stored ← ofResult (manager.getValid planId call.now)
  let plan ← ofResult (selectFiles stored selected)
  let result ← onDisk ((config.applyEnv call).applyPlan plan call.now)
  modify fun manager => manager.remove planId
  return result

def purgeJournal (config : ManagerConfig) (call : Call) (includeBackups : Bool) :
    ManagerM (ℕ × ℕ) := do
  let journal := (← get).disk.journal
  let backups := if includeBackups then [] else journal.backups
  onDisk do
    modify fun disk => { disk with journal := ⟨backups, []⟩ }
    (config.applyEnv call).persist .record 0
  return (journal.applies.length, journal.backups.length - backups.length)

/-! ## Runs -/

/-- A call of the manager, a change of a file from outside, or a restart. -/
inductive ManagerAct where
  | preview (call : Call) (source : AgentSource) (scope : ConnectorScope)
    (operation : PlanOperation)
  | previewRollback (call : Call) (backupId : String)
  | apply (call : Call) (planId : String) (selected : Option (List String))
  | purgeJournal (call : Call) (includeBackups : Bool)
  | outside (path : DiskPath) (content : Option Bytes)
  | restart

/-- The manager after a call, whether it failed or not. -/
def after {α : Type} (m : ManagerM α) (manager : Manager) : Manager :=
  match m manager with
  | .ok _ manager => manager
  | .error _ manager => manager

def step (config : ManagerConfig) (manager : Manager) : ManagerAct → Option Manager
  | .preview call source scope operation =>
    some (after (config.preview call source scope operation) manager)
  | .previewRollback call backupId => some (after (config.previewRollback call backupId) manager)
  | .apply call planId selected => some (after (config.apply call planId selected) manager)
  | .purgeJournal call includeBackups => some (after (config.purgeJournal call includeBackups) manager)
  | .outside path content => some { manager with disk := manager.disk.write path content }
  | .restart => some (Manager.new manager.disk)

end ManagerConfig

end Connector

end LlmNotch
