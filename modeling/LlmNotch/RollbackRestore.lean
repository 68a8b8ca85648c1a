import LlmNotch.ApplyAtomicity
import LlmNotch.ConnectorManager

/-!
# When a rollback restores a file

Every plan in the store of a reachable manager is for the one file of its agent in its scope
(`sound_of_run`), and no two agents share a file (`source_of_target`). An apply that succeeds
leaves the old content in a backup with an entry in the journal (`Wrote.written`), which no later
call of the manager changes, a purge of the backups apart (`intact_of_run`).

A rollback looks for the file in the user scope, whatever the scope of the apply was, and there
is no backup of a file that was created. `rollback_restores` : a file that was written and has
not changed since is put back by some rollback exactly if it was a text before the apply and its
path is that of its agent in the user scope.
-/

namespace LlmNotch

namespace Connector

variable {config : ManagerConfig} {call : Call} {plan : StoredPlan} {disk : Disk}
  {source : AgentSource} {adapter : AdapterDescriptor} {scope : ConnectorScope} {root : ScopeRoot}

/-! ## Targets -/

theorem afterLastSlash_under (pre rel : String) :
    afterLastSlash (pre ++ "/" ++ rel) = afterLastSlash rel := by
  have hrev : (pre ++ "/" ++ rel).toList.reverse =
      rel.toList.reverse ++ '/' :: pre.toList.reverse := by
    simp
  unfold afterLastSlash
  rw [hrev, List.takeWhile_append]
  split_ifs with hall
  · have hplain : rel.toList.reverse.takeWhile (· ≠ '/') = rel.toList.reverse :=
      (List.takeWhile_prefix _).eq_of_length hall
    rw [hplain]
    simp
  · rfl

/-- The agent whose target is in a directory of this name. -/
def ownerOfDir (name : String) : AgentSource :=
  if name = ".cursor" then .cursor
  else if name = ".claude" then .claudeCode
  else if name = ".codex" then .codex
  else if name = ".gemini" then .gemini
  else if name = ".qwen" then .qwen
  else if name = "antigravity-cli" ∨ name = ".agents" then .antigravityCli
  else if name = "hooks" then .copilotCli
  else .unknown

/-- What all adapters of the registry have in common. -/
structure WellPlaced (source : AgentSource) (adapter : AdapterDescriptor)
    (scope : ConnectorScope) : Prop where
  agent : adapter.source = source
  owner : ownerOfDir (afterLastSlash (adapter.targetFor scope).relativeDir) = source
  plain : '/' ∉ (adapter.targetFor scope).fileName.toList
  short : (adapter.targetFor scope).fileName.toList.length ≤ 14

theorem wellPlaced (h : registryGet source = some adapter) (scope : ConnectorScope) :
    WellPlaced source adapter scope := by
  cases source <;> cases h <;> cases scope <;>
    exact ⟨rfl, by decide, by decide, by decide⟩

/-- No two agents share a target, whatever the roots and scopes. -/
theorem source_of_target {s t : AgentSource} {a b : AdapterDescriptor} {x y : ConnectorScope}
    {r q : ScopeRoot} (ha : registryGet s = some a) (hb : registryGet t = some b)
    (h : r.resolve (a.targetFor x) = q.resolve (b.targetFor y)) : s = t := by
  have hdir : afterLastSlash (a.targetFor x).relativeDir =
      afterLastSlash (b.targetFor y).relativeDir := by
    have hpath : r.canonical ++ "/" ++ (a.targetFor x).relativeDir =
        q.canonical ++ "/" ++ (b.targetFor y).relativeDir := congrArg DiskPath.dir h
    rw [← afterLastSlash_under r.canonical (a.targetFor x).relativeDir, hpath,
      afterLastSlash_under]
  rw [← (wellPlaced ha x).owner, ← (wellPlaced hb y).owner, hdir]

/-! ## Plans of the manager -/

namespace ManagerConfig

/-- The path of the file of an agent in a scope. -/
def targetPath (config : ManagerConfig) (scope : ConnectorScope) (source : AgentSource) :
    Option DiskPath :=
  match config.rootOf scope, registryGet source with
  | .ok root, some adapter => some (root.resolve (adapter.targetFor scope))
  | _, _ => none

theorem targetPath_eq_some {path : DiskPath} : config.targetPath scope source = some path ↔
    ∃ root adapter, config.rootOf scope = .ok root ∧ registryGet source = some adapter ∧
      path = root.resolve (adapter.targetFor scope) := by
  unfold targetPath
  cases config.rootOf scope with
  | error e => simp
  | ok root => cases registryGet source <;> simp [eq_comm]

/-- A plan for the one file of its agent and scope. -/
structure Made (config : ManagerConfig) (plan : StoredPlan) : Prop where
  target : ∃ adapter root file, registryGet plan.source = some adapter ∧
    config.rootOf plan.scope = .ok root ∧ plan.files = [file] ∧
    file.canonicalPath = root.resolve (adapter.targetFor plan.scope)
  hash : plan.scope = .project → ∀ f ∈ plan.files,
    f.baselineSha256 = config.sha256Hex (asBytes f.baselineText)

theorem made_buildPreview {operation : PlanOperation} (hadapter : registryGet source = some adapter)
    (hroot : config.rootOf scope = .ok root)
    (h : config.buildPreview call adapter scope operation root disk = .ok plan) :
    config.Made plan ∧ plan.source = source ∧ plan.scope = scope := by
  have hsource : adapter.source = source := (wellPlaced hadapter scope).agent
  unfold buildPreview at h
  simp only [bind_eq_ok] at h
  obtain ⟨-, -, template, -, ⟨text, baseline, isNewFile⟩, -, ⟨merged, _⟩, -, hplan⟩ := h
  cases hplan
  refine ⟨⟨⟨adapter, root, _, ?_, hroot, rfl, rfl⟩, fun _ f hf => ?_⟩, hsource, rfl⟩
  · rw [hsource]
    exact hadapter
  · rw [List.mem_singleton.1 hf]

theorem scopeRoot_eq_ok (h : config.scopeRoot call scope = .ok root) :
    config.rootOf scope = .ok root := by
  unfold scopeRoot at h
  simp only [bind_eq_ok] at h
  obtain ⟨root', hroot, -, -, hok⟩ := h
  cases hok
  exact hroot

theorem made_rollbackPlan {id : String} (hroot : config.rootOf .user = .ok root)
    (h : config.rollbackPlan call root id disk = .ok plan) :
    config.Made plan ∧ plan.scope = .user := by
  unfold rollbackPlan at h
  split at h
  · rename_i backup hbackup
    split at h
    · rename_i adapter hadapter
      simp only [bind_eq_ok] at h
      obtain ⟨-, -, currentHash, -, h⟩ := h
      split at h
      · simp only [bind_eq_ok] at h
        obtain ⟨-, -, h⟩ := h
        split_ifs at h with hhash happlied
        · cases h
          exact ⟨⟨⟨adapter, root, _, hadapter, hroot, rfl, rfl⟩, fun hscope => (by cases hscope)⟩,
            rfl⟩
        · obtain ⟨hmade, -, hscope⟩ := made_buildPreview hadapter hroot h
          exact ⟨hmade, hscope⟩
      · cases h
    · cases h
  · cases h

end ManagerConfig

/-! ## What an apply leaves alone -/

section Keeping

variable {env : ApplyEnv} {now : ℤ} {i : ℕ} {path : DiskPath} {content : Bytes}
  {file : PlanFileSnapshot} {I : Disk → Prop}

theorem keeps_steps (cs : List (Option ConnectorError)) : Keeps I (steps cs) := by
  intro disk h
  rw [wp_steps]
  exact ⟨fun _ => h, fun _ _ => h⟩

namespace ApplyEnv

/-- An existing file is not overwritten by a backup. -/
theorem keeps_writeExclusiveFile
    (hnew : ∀ {d : Disk} (b : Option Bytes), I d → d.files path = none → I (d.write path b)) :
    Keeps I (env.writeExclusiveFile i path content) := by
  intro disk h
  cases hhas : disk.files path with
  | some old =>
    have hexists : disk.has path = true := by
      rw [Disk.has, hhas]
      rfl
    simp only [writeExclusiveFile, wp_bind, wp_get, hexists, if_true, wp_throw]
    exact h
  | none =>
    refine wp_mono (wp_writeExclusiveFile hhas) ?_ ?_
    · rintro _ d ⟨-, rfl⟩
      exact hnew _ h hhas
    · rintro _ d ⟨-, b, rfl⟩
      exact hnew _ h hhas

theorem keeps_preflight : Keeps I (env.preflight i file) := by
  intro disk h
  refine wp_mono wp_preflight ?_ ?_
  · rintro _ d ⟨-, rfl⟩
    exact h
  · rintro _ d ⟨-, rfl⟩
    exact h

theorem keeps_currentHash : Keeps I (env.currentHash i file) := by
  refine keeps_bind keeps_get fun disk => ?_
  cases disk.files file.canonicalPath with
  | none => exact keeps_pure _
  | some content => exact keeps_bind (keeps_steps _) fun _ => keeps_pure _

/-- An apply of one file makes a backup, records it, and writes the file. -/
theorem keeps_applySingleFile
    (hnew : ∀ {d : Disk} (b : Option Bytes), I d →
      d.files (env.backupPath now i file.canonicalPath) = none →
        I (d.write (env.backupPath now i file.canonicalPath) b))
    (hrecord : ∀ e, Keeps I (env.recordBackup i e))
    (hwrite : Keeps I
      (env.atomicWrite .apply i 6 file.canonicalPath (asBytes file.mergedText))) :
    Keeps I (env.applySingleFile plan now i file) := by
  have hbackup : Keeps I (env.createBackup plan now i file) := by
    refine keeps_bind (keeps_steps _) fun _ => keeps_bind keeps_get fun disk => ?_
    cases disk.files file.canonicalPath with
    | none => exact keeps_throw _
    | some content =>
      exact keeps_bind (keeps_steps _) fun _ => keeps_bind (keeps_writeExclusiveFile hnew) fun _ =>
        hrecord _
  refine keeps_bind (keeps_steps _) fun _ => keeps_bind keeps_currentHash fun current => ?_
  have hdone : ∀ id : Option String, Keeps I (do
      steps [env.faults.revalidate .apply i 5]
      env.atomicWrite .apply i 6 file.canonicalPath (asBytes file.mergedText)
      return (⟨file.displayPath, .applied, id,
        some (env.sha256Hex (asBytes file.mergedText)), none⟩ : ConnectorFileApplyResult)) :=
    fun id => keeps_bind (keeps_steps _) fun _ => keeps_bind hwrite fun _ => keeps_pure _
  dsimp only
  split_ifs with hchanged
  · exact fun _ h => h
  · refine keeps_bind keeps_get fun disk => ?_
    split_ifs
    · exact keeps_bind (keeps_steps _) fun _ => keeps_bind hbackup fun id =>
        keeps_bind (keeps_pure _) hdone
    · exact keeps_bind (keeps_pure none) hdone

end ApplyEnv

end Keeping

section Intact

variable {env : ApplyEnv} {now : ℤ} {phase : Phase} {i n : ℕ} {path b : DiskPath}
  {c content : Bytes} {entry : Option BackupJournalEntry} {file : PlanFileSnapshot}

/-- The content of a file, and a backup in the journal. -/
structure Intact (b : DiskPath) (c : Bytes) (entry : Option BackupJournalEntry) (disk : Disk) :
    Prop where
  file : disk.files b = some c
  journal : ∀ e ∈ entry, disk.journal.findBackup e.id = some e
  persisted : ∀ e ∈ entry, disk.persisted.findBackup e.id = some e

theorem Intact.write (h : Intact b c entry disk) (hb : path ≠ b) (content : Option Bytes) :
    Intact b c entry (disk.write path content) :=
  ⟨(Function.update_of_ne hb.symm _ _).trans h.file, h.journal, h.persisted⟩

namespace ApplyEnv

theorem keeps_atomicWrite (hb : path ≠ b) :
    Keeps (Intact b c entry) (env.atomicWrite phase i n path content) := by
  refine fun disk h => wp_mono wp_atomicWrite ?_ ?_
  · rintro _ d ⟨-, rfl⟩
    exact h.write hb _
  · rintro _ d ⟨-, rfl⟩
    split_ifs
    · exact h.write hb _
    · exact h

theorem keeps_persist : Keeps (Intact b c entry) (env.persist phase i) :=
  keeps_bind (keeps_steps _) fun _ => keeps_modify fun _ h => ⟨h.file, h.journal, h.journal⟩

theorem keeps_recordBackup (e : BackupJournalEntry) :
    Keeps (Intact b c entry) (env.recordBackup i e) := by
  refine keeps_bind (keeps_modify fun disk h => ⟨h.file, fun e' he => ?_, h.persisted⟩) fun _ =>
    keeps_bind keeps_persist fun _ => keeps_pure _
  exact (findBackup_withEntry e e'.id).trans (by rw [h.journal e' he]; rfl)

theorem keeps_recordApply (e : ConnectorJournalEntry) :
    Keeps (Intact b c entry) (env.recordApply e) :=
  keeps_bind (keeps_modify fun _ h => ⟨h.file, h.journal, h.persisted⟩) fun _ => keeps_persist

theorem intact_applySingleFile (hb : file.canonicalPath ≠ b) :
    Keeps (Intact b c entry) (env.applySingleFile plan now i file) := by
  refine keeps_applySingleFile (fun content h hnone => h.write ?_ content) keeps_recordBackup
    (keeps_atomicWrite hb)
  rintro rfl
  cases hnone.symm.trans h.file

theorem keeps_restoreFromBackup {backup : BackupJournalEntry} (hb : file.canonicalPath ≠ b) :
    Keeps (Intact b c entry) (env.restoreFromBackup i file backup) := by
  refine keeps_bind (keeps_steps _) fun _ => keeps_bind keeps_get fun disk => ?_
  cases disk.files (inferBackupPath file.canonicalPath backup.backupDisplayPath) with
  | none => exact keeps_throw _
  | some content =>
    refine keeps_bind (keeps_steps _) fun _ => ?_
    dsimp only
    split_ifs
    · exact fun _ h => h
    · exact keeps_bind (keeps_steps _) fun _ => keeps_atomicWrite hb

theorem keeps_compensateOne {a : AppliedBackup} (hb : a.file.canonicalPath ≠ b) :
    Keeps (Intact b c entry) (env.compensateOne a) := by
  refine keeps_bind keeps_get fun disk => ?_
  cases disk.journal.findBackup a.backupId with
  | none => exact keeps_pure _
  | some backup =>
    refine keeps_bind (keeps_steps _) fun _ => ?_
    dsimp only
    split_ifs
    · exact keeps_restoreFromBackup hb
    · exact keeps_pure _

theorem keeps_applyFiles {rest : List PlanFileSnapshot} {results : List ConnectorFileApplyResult}
    {applied : List AppliedBackup} (hb : ∀ f ∈ rest, f.canonicalPath ≠ b)
    (happlied : ∀ a ∈ applied, a.file.canonicalPath ≠ b) :
    Keeps (Intact b c entry) (env.applyFiles plan now i rest results applied) := by
  induction rest generalizing i results applied with
  | nil => exact keeps_pure _
  | cons f rest ih =>
    have hrest : ∀ g ∈ rest, g.canonicalPath ≠ b := fun g hg => hb g (List.mem_cons_of_mem f hg)
    unfold applyFiles
    split_ifs
    · exact ih hrest happlied
    · refine keeps_bind (keeps_attempt (intact_applySingleFile (hb f List.mem_cons_self))) ?_
      rintro (e | result)
      · refine keeps_bind (keeps_forM fun a ha => ?_) fun _ => keeps_throw _
        exact keeps_compensateOne (happlied a (List.mem_reverse.1 ha))
      · refine ih hrest fun a ha => ?_
        rcases List.mem_append.1 ha with ha | ha
        · exact happlied a ha
        · obtain ⟨id, -, rfl⟩ := Option.map_eq_some_iff.1 (Option.mem_toList.1 ha)
          exact hb f List.mem_cons_self

theorem keeps_preflightFiles {rest : List PlanFileSnapshot} :
    Keeps (Intact b c entry) (env.preflightFiles i rest) := by
  induction rest generalizing i with
  | nil => exact keeps_pure _
  | cons f rest ih => exact keeps_bind keeps_preflight fun _ => ih

/-- An apply leaves the files that are not in its plan alone, and keeps the backups of the
journal. -/
theorem keeps_applyPlan (hb : ∀ f ∈ plan.files, f.canonicalPath ≠ b) :
    Keeps (Intact b c entry) (env.applyPlan plan now) := by
  unfold applyPlan
  split_ifs
  · exact keeps_pure _
  · exact keeps_bind keeps_preflightFiles fun _ => keeps_bind
      (keeps_applyFiles hb fun a ha => (by cases ha)) fun results =>
        keeps_bind (keeps_recordApply _) fun _ => keeps_pure _

end ApplyEnv

end Intact

namespace ManagerConfig

/-! ## Runs -/

/-- Every stored plan is for the one file of its agent and scope. -/
def Sound (config : ManagerConfig) (manager : Manager) : Prop :=
  ∀ id plan, manager.plans id = some plan → config.Made plan

theorem sound_new (disk : Disk) : config.Sound (.new disk) := by
  intro id plan h
  cases h

/-- A plan in the store after an insert is the new one or was there. -/
theorem insert_plans {manager : Manager} {stored : StoredPlan} {id : String}
    (h : (manager.insert plan).plans id = some stored) :
    stored = plan ∨ manager.plans id = some stored := by
  by_cases hid : id = plan.planId
  · subst hid
    have hself : (manager.insert plan).plans plan.planId = some plan := Function.update_self _ _ _
    exact Or.inl (Option.some.inj (h.symm.trans hself))
  · have hother : (manager.insert plan).plans id = manager.plans id := Function.update_of_ne hid _ _
    exact Or.inr (hother.symm.trans h)

theorem remove_plans {manager : Manager} {stored : StoredPlan} {id planId : String}
    (h : (manager.remove planId).plans id = some stored) : manager.plans id = some stored := by
  by_cases hid : id = planId
  · have hnone : (manager.remove planId).plans id = none := by
      rw [hid]
      exact Function.update_self _ _ _
    cases hnone.symm.trans h
  · have hother : (manager.remove planId).plans id = manager.plans id :=
      Function.update_of_ne hid _ _
    exact hother.symm.trans h

theorem getValid_eq_ok {manager : Manager} {planId : String} {now : ℤ} :
    manager.getValid planId now = .ok plan ↔
      manager.plans planId = some plan ∧ now < plan.expiresAtMs := by
  unfold Manager.getValid
  cases hplan : manager.plans planId with
  | none => simp
  | some stored =>
    dsimp only
    split_ifs with hexpired
    · refine ⟨fun h => (by cases h), fun ⟨h, hnow⟩ => ?_⟩
      rw [Option.some.inj h] at hexpired
      omega
    · refine ⟨fun h => ?_, fun ⟨h, _⟩ => by rw [Option.some.inj h]⟩
      cases h
      exact ⟨rfl, by omega⟩

section Kept

variable {J : Disk → Prop} {manager manager' : Manager}

theorem keeps_store {x : Except ConnectorError StoredPlan}
    (h : ∀ plan, x = .ok plan → config.Made plan) :
    Keeps (fun manager => config.Sound manager ∧ J manager.disk) (store x) := by
  rintro manager ⟨hsound, hdisk⟩
  simp only [store, wp_bind, wp_ofResult, wp_modify, wp_pure]
  refine ⟨fun plan hplan => ⟨fun id stored hstored => ?_, hdisk⟩, fun _ _ => ⟨hsound, hdisk⟩⟩
  rcases insert_plans hstored with rfl | hold
  · exact h _ hplan
  · exact hsound id stored hold

theorem keeps_preview {operation : PlanOperation} :
    Keeps (fun manager => config.Sound manager ∧ J manager.disk)
      (config.preview call source scope operation) := by
  refine fun manager h => keeps_store (fun plan hplan => ?_) manager h
  cases hadapter : registryGet source with
  | none =>
    rw [hadapter] at hplan
    cases hplan
  | some adapter =>
    rw [hadapter] at hplan
    obtain ⟨root, hroot, hbuild⟩ := bind_eq_ok.1 hplan
    exact (made_buildPreview hadapter (scopeRoot_eq_ok hroot) hbuild).1

theorem keeps_previewRollback {id : String} :
    Keeps (fun manager => config.Sound manager ∧ J manager.disk)
      (config.previewRollback call id) := by
  refine fun manager h => keeps_store (fun plan hplan => ?_) manager h
  obtain ⟨root, hroot, hplan⟩ := bind_eq_ok.1 hplan
  exact (made_rollbackPlan (scopeRoot_eq_ok hroot) hplan).1

/-- A program on the disk leaves the plans alone. -/
theorem keeps_onDisk {α : Type} {m : ApplyM α} (hm : Keeps J m) :
    Keeps (fun manager => config.Sound manager ∧ J manager.disk) (onDisk m) := by
  rintro manager ⟨hsound, hdisk⟩
  rw [onDisk, wp_zoom]
  exact wp_mono (hm manager.disk hdisk) (fun _ _ h => ⟨hsound, h⟩) fun _ _ h => ⟨hsound, h⟩

variable {selected : Option (List String)}

/-- The one file of a plan is selected or the apply fails. -/
theorem selectFiles_single {plan' : StoredPlan} {file : PlanFileSnapshot}
    (hfiles : plan.files = [file]) (h : selectFiles plan selected = .ok plan') : plan' = plan := by
  cases selected with
  | none => exact (Except.ok.inj h).symm
  | some selected =>
    simp only [selectFiles] at h
    split at h
    · cases h
    · split_ifs at h with hempty
      cases h
      have hall : (plan.files.filter fun file => file.displayPath ∈ selected) = plan.files := by
        rw [hfiles] at hempty ⊢
        simp only [List.filter_cons, List.filter_nil] at hempty ⊢
        split_ifs at hempty ⊢
        · rfl
        · exact absurd rfl hempty
      rw [hall]

theorem selectFiles_eq_ok {plan' : StoredPlan} (hmade : config.Made plan)
    (h : selectFiles plan selected = .ok plan') : plan' = plan := by
  obtain ⟨_, _, file, -, -, hfiles, -⟩ := hmade.target
  exact selectFiles_single hfiles h

theorem keeps_apply {planId : String}
    (hJ : ∀ plan, config.Made plan → Keeps J ((config.applyEnv call).applyPlan plan call.now)) :
    Keeps (fun manager => config.Sound manager ∧ J manager.disk)
      (config.apply call planId selected) := by
  rintro manager ⟨hsound, hdisk⟩
  simp only [apply, wp_bind, wp_get, wp_ofResult]
  refine ⟨fun plan hvalid => ⟨fun plan' hselect => ?_, fun _ _ => ⟨hsound, hdisk⟩⟩,
    fun _ _ => ⟨hsound, hdisk⟩⟩
  have hmade : config.Made plan := hsound planId plan (getValid_eq_ok.1 hvalid).1
  obtain rfl := selectFiles_eq_ok hmade hselect
  refine wp_mono (keeps_onDisk (hJ _ hmade) manager ⟨hsound, hdisk⟩) ?_ fun _ _ h => h
  rintro result m ⟨hplans, hm⟩
  rw [wp_modify, wp_pure]
  exact ⟨fun id stored hstored => hplans id stored (remove_plans hstored), hm⟩

theorem after_of_keeps {α : Type} {I : Manager → Prop} {m : ManagerM α} (hm : Keeps I m)
    (h : I manager) : I (after m manager) := by
  have hwp := hm manager h
  unfold after
  unfold wp at hwp
  cases hrun : m manager with
  | ok a t => rwa [hrun] at hwp
  | error e t => rwa [hrun] at hwp

/-- What every apply, purge and change from outside keeps, and what a restart keeps of the
journal file, is kept by a step. -/
theorem step_keeps {act : ManagerAct}
    (hplan : ∀ call plan, config.Made plan →
      Keeps J ((config.applyEnv call).applyPlan plan call.now))
    (hpurge : ∀ call includeBackups, act = .purgeJournal call includeBackups →
      Keeps (fun manager => config.Sound manager ∧ J manager.disk)
        (config.purgeJournal call includeBackups))
    (houtside : ∀ path content, act = .outside path content →
      ∀ disk, J disk → J (disk.write path content))
    (hrestart : ∀ disk, J disk → J (Manager.new disk).disk)
    (h : config.Sound manager ∧ J manager.disk) (hstep : config.step manager act = some manager') :
    config.Sound manager' ∧ J manager'.disk := by
  cases act with
  | preview call source scope operation =>
    exact Option.some.inj hstep ▸ after_of_keeps keeps_preview h
  | previewRollback call id =>
    exact Option.some.inj hstep ▸ after_of_keeps keeps_previewRollback h
  | apply call planId selected =>
    exact Option.some.inj hstep ▸ after_of_keeps (keeps_apply (hplan call)) h
  | purgeJournal call includeBackups =>
    exact Option.some.inj hstep ▸ after_of_keeps (hpurge call includeBackups rfl) h
  | outside path content =>
    exact Option.some.inj hstep ▸ ⟨h.1, houtside path content rfl _ h.2⟩
  | restart =>
    exact Option.some.inj hstep ▸ ⟨sound_new _, hrestart _ h.2⟩

theorem keeps_purgeJournal {includeBackups : Bool}
    (hJ : ∀ disk, J disk → J { disk with journal :=
      ⟨if includeBackups then [] else disk.journal.backups, []⟩ })
    (hpersist : Keeps J ((config.applyEnv call).persist .record 0)) :
    Keeps (fun manager => config.Sound manager ∧ J manager.disk)
      (config.purgeJournal call includeBackups) := by
  rintro manager ⟨hsound, hdisk⟩
  simp only [purgeJournal, onDisk, wp_bind, wp_get, wp_zoom, wp_modify, wp_pure]
  exact wp_mono (hpersist _ (hJ _ hdisk)) (fun _ _ h => ⟨hsound, h⟩) fun _ _ h => ⟨hsound, h⟩

/-- Every plan of a reachable manager is for the one file of its agent and scope. -/
theorem sound_of_run {acts : List ManagerAct} (hsound : config.Sound manager)
    (hrun : run config.step manager acts = some manager') : config.Sound manager' := by
  have htriv : ∀ {α : Type} (m : ApplyM α), Keeps (fun _ => True) m := by
    intro α m disk _
    unfold wp
    cases m disk <;> trivial
  have hstep : ∀ s a t, True → config.Sound s ∧ True → config.step s a = some t →
      config.Sound t ∧ True := fun s a t _ h ht =>
    step_keeps (J := fun _ => True) (fun _ _ _ => htriv _)
      (fun _ _ _ => keeps_purgeJournal (fun _ _ => trivial) (htriv _)) (fun _ _ _ _ _ => trivial)
      (fun _ _ => trivial) h ht
  exact (Guarded.invariant hstep ⟨hsound, trivial⟩ (Guarded.trivial _ _ _) hrun).1

end Kept

/-- The action leaves the file `b` and the backups of the journal alone, unless by an apply. -/
def Spares (b : DiskPath) : ManagerAct → Prop
  | .outside path _ => path ≠ b
  | .purgeJournal _ includeBackups => includeBackups = false
  | _ => True

/-- A backup and its journal entry stay in every run that spares them : no target has the
name of a backup. -/
theorem intact_of_run {b : DiskPath} {c : Bytes} {entry : Option BackupJournalEntry}
    {acts : List ManagerAct} {manager manager' : Manager} (hlong : 14 < b.name.toList.length)
    (hsound : config.Sound manager) (hintact : Intact b c entry manager.disk)
    (hspares : Guarded config.step (fun _ act => Spares b act) manager acts)
    (hrun : run config.step manager acts = some manager') : Intact b c entry manager'.disk := by
  have htarget : ∀ plan, config.Made plan → ∀ f ∈ plan.files, f.canonicalPath ≠ b := by
    rintro plan hmade f hf rfl
    obtain ⟨adapter, root, file, hadapter, -, hfiles, hpath⟩ := hmade.target
    rw [hfiles, List.mem_singleton] at hf
    rw [hf, hpath] at hlong
    exact absurd (wellPlaced hadapter plan.scope).short (by exact Nat.not_le.2 hlong)
  refine (Guarded.invariant (I := fun m => config.Sound m ∧ Intact b c entry m.disk)
    (fun s a t hspares h ht => ?_) ⟨hsound, hintact⟩ hspares hrun).2
  refine step_keeps (fun call plan hmade => ApplyEnv.keeps_applyPlan (htarget plan hmade)) ?_ ?_ ?_
    h ht
  · rintro call includeBackups rfl
    refine keeps_purgeJournal (fun disk h => ⟨h.file, ?_, h.persisted⟩) ApplyEnv.keeps_persist
    rw [show includeBackups = false from hspares]
    exact h.journal
  · rintro path content rfl disk h
    exact h.write hspares content
  · exact fun disk h => ⟨h.file, h.persisted, h.persisted⟩

/-! ## One apply -/

/-- What a call relies on from outside : hashes are not empty, and the names and ids made from
a `Uuid` are new. -/
structure Fresh (config : ManagerConfig) (call : Call) (disk : Disk) : Prop where
  hash : ∀ bytes, config.sha256Hex bytes ≠ ""
  stamp : '/' ∉ (config.backupTimestamp call.now).toList
  plain : ∀ i, '/' ∉ (call.backupUuid i).toList
  absent : ∀ scope source path, config.targetPath scope source = some path →
    disk.files ((config.applyEnv call).backupPath call.now 0 path) = none
  ids : ∀ i j, call.backupId i = call.backupId j → i = j
  unused : disk.journal.findBackup (call.backupId 0) = none

theorem backupPath_long (env : ApplyEnv) (now : ℤ) (i : ℕ) (path : DiskPath) :
    14 < (env.backupPath now i path).name.toList.length := by
  have hmark : ".llm-notch.bak.".toList.length = 15 := by decide
  simp only [ApplyEnv.backupPath, DiskPath.withFileName, ApplyEnv.backupFileName,
    String.toList_append, List.length_append, hmark]
  omega

variable {file : PlanFileSnapshot} {merged : String}

/-- The backup of a target has a plain file name. -/
theorem Fresh.plain_name (h : config.Fresh call disk) (hadapter : registryGet source = some adapter)
    (hpath : file.canonicalPath = root.resolve (adapter.targetFor scope)) (i : ℕ) :
    '/' ∉ ((config.applyEnv call).backupFileName call.now i file.canonicalPath).toList := by
  have hname : '/' ∉ file.canonicalPath.name.toList := by
    rw [hpath]
    exact (wellPlaced hadapter scope).plain
  have hmark : '/' ∉ ".llm-notch.bak.".toList := by decide
  have hdot : '/' ∉ ".".toList := by decide
  have hstamp : '/' ∉ ((config.applyEnv call).backupTimestamp call.now).toList := h.stamp
  have huuid : '/' ∉ ((config.applyEnv call).backupUuid i).toList := h.plain i
  simp only [ApplyEnv.backupFileName, String.toList_append, List.mem_append, not_or]
  exact ⟨⟨⟨⟨hname, hmark⟩, hstamp⟩, hdot⟩, huuid⟩

theorem place_of_singleton {f : PlanFileSnapshot} {i : ℕ} (hfiles : plan.files = [file])
    (hf : plan.files[i]? = some f) : i = 0 ∧ f = file := by
  rw [hfiles] at hf
  rcases i with _ | i
  · exact ⟨rfl, (Option.some.inj hf).symm⟩
  · cases hf

theorem Fresh.applyFresh (h : config.Fresh call disk) (hmade : config.Made plan) :
    (config.applyEnv call).Fresh plan call.now disk ∧
      (plan.files.map PlanFileSnapshot.canonicalPath).Nodup := by
  obtain ⟨adapter, root, file, hadapter, hroot, hfiles, hpath⟩ := hmade.target
  have hplace : ∀ i f, plan.files[i]? = some f → i = 0 ∧ f = file := fun i f hf =>
    place_of_singleton hfiles hf
  refine ⟨⟨h.hash, fun i f hf => ?_, fun i f hf => ?_, fun i f hf g hg heq => ?_,
    fun i j f g hf hg _ => ?_, h.ids, fun i hi => ?_⟩, ?_⟩
  · obtain ⟨-, rfl⟩ := hplace i f hf
    exact h.plain_name hadapter hpath i
  · obtain ⟨rfl, rfl⟩ := hplace i f hf
    exact h.absent _ _ _ (targetPath_eq_some.2 ⟨root, adapter, hroot, hadapter, hpath⟩)
  · rw [hfiles, List.mem_singleton] at hg
    have hshort := (wellPlaced hadapter plan.scope).short
    have hlong := backupPath_long (config.applyEnv call) call.now i f.canonicalPath
    rw [heq, hg, hpath] at hlong
    exact absurd hshort (Nat.not_le.2 hlong)
  · rw [(hplace i f hf).1, (hplace j g hg).1]
  · rw [hfiles, List.length_singleton, Nat.lt_one_iff] at hi
    rw [hi]
    exact h.unused
  · rw [hfiles]
    exact List.nodup_singleton _

variable {manager : Manager} {planId : String} {selected : Option (List String)}

/-- An apply that succeeds has run the stored plan. -/
theorem wp_apply (hstored : manager.plans planId = some plan) (hmade : config.Made plan) :
    wp (config.apply call planId selected) manager
      (fun result m =>
        (config.applyEnv call).applyPlan plan call.now manager.disk = .ok result m.disk)
      (fun _ _ => True) := by
  simp only [apply, onDisk, wp_bind, wp_get, wp_ofResult, wp_zoom, wp_modify, wp_pure]
  refine ⟨fun stored hvalid => ⟨fun plan' hselect => ?_, fun _ _ => trivial⟩, fun _ _ => trivial⟩
  obtain ⟨hstored', -⟩ := getValid_eq_ok.1 hvalid
  obtain rfl := Option.some.inj (hstored.symm.trans hstored')
  obtain rfl := selectFiles_eq_ok hmade hselect
  exact wp_mono (wp_run _ _) (fun _ _ h => h) fun _ _ _ => trivial

/-- What a plan that was run has done. -/
theorem Made.succeeds {result : ConnectorApplyResult} {d : Disk} (hmade : config.Made plan)
    (hfresh : config.Fresh call disk)
    (hrun : (config.applyEnv call).applyPlan plan call.now disk = .ok result d) :
    (config.applyEnv call).Succeeds plan call.now disk result d := by
  obtain ⟨happly, hdistinct⟩ := hfresh.applyFresh hmade
  obtain ⟨-, hnil | hok⟩ := wp_ok (ApplyEnv.wp_applyPlan happly hdistinct) hrun
  · obtain ⟨_, _, _, -, -, hfiles, -⟩ := hmade.target
    cases hnil.symm.trans hfiles
  · exact hok

/-- Nothing fails in an apply without faults. -/
theorem completes_of_clear (hclear : call.faults = .clear) (plan : StoredPlan) (disk : Disk) :
    (config.applyEnv call).Completes plan call.now disk ∧
      firstError (config.applyEnv call).recordChecks = none := by
  have hio : ∀ phase i op text, (config.applyEnv call).io phase i op text = none := by
    intro phase i op text
    simp [ApplyEnv.io, applyEnv, hclear, Faults.clear]
  have hfaults : (config.applyEnv call).faults = .clear := hclear
  have hrecorded : firstError (config.applyEnv call).recordChecks = none := by
    simp [ApplyEnv.recordChecks, ApplyEnv.persistChecks, hio]
  refine ⟨fun k f _ hstop => hstop.2 ?_, hrecorded⟩
  have hreplace : ∀ existed, firstError ((config.applyEnv call).replaceChecks .apply k existed) =
      none := by
    intro existed
    unfold ApplyEnv.replaceChecks
    split_ifs <;> simp [hio, hfaults, Faults.clear]
  simp only [ApplyEnv.applyChecks, ApplyEnv.beforeWriteChecks, ApplyEnv.backupChecks,
    ApplyEnv.exclusiveChecks, ApplyEnv.persistChecks, ApplyEnv.writeChecks, ApplyEnv.tempChecks,
    hfaults, Faults.clear, hio, hreplace, firstError_append, firstError_cons, firstError_nil,
    Option.or_none]
  split_ifs <;> simp

/-- An apply without faults succeeds on files that pass the preflight. -/
theorem apply_succeeds (hstored : manager.plans planId = some plan) (hmade : config.Made plan)
    (hfresh : config.Fresh call manager.disk) (hclear : call.faults = .clear)
    (hnow : call.now < plan.expiresAtMs)
    (hpre : (config.applyEnv call).AllPreflight plan manager.disk) :
    ∃ result m, config.apply call planId none manager = .ok result m := by
  obtain ⟨happly, hdistinct⟩ := hfresh.applyFresh hmade
  have hcompletes : (config.applyEnv call).Completes plan call.now manager.disk ∧
      firstError (config.applyEnv call).recordChecks = none :=
    completes_of_clear hclear plan manager.disk
  obtain ⟨hdone, hrecord⟩ := hcompletes
  have hspec : wp (config.apply call planId none) manager (fun _ _ => True) fun _ _ => False := by
    simp only [apply, onDisk, wp_bind, wp_get, wp_ofResult, wp_zoom, wp_modify, wp_pure]
    have hvalid := getValid_eq_ok.2 ⟨hstored, hnow⟩
    refine ⟨fun stored hstored' => ⟨fun plan' hselect => ?_, fun e he => (by cases he)⟩,
      fun e he => (by cases hvalid.symm.trans he)⟩
    obtain rfl := Except.ok.inj (hvalid.symm.trans hstored')
    cases hselect
    refine wp_mono (ApplyEnv.wp_applyPlan happly hdistinct) (fun _ _ _ => trivial) ?_
    intro e d hfails
    cases hfails with
    | preflight hnot => exact hnot hpre
    | stopped _ hstop => exact hdone _ _ hstop.1 hstop.2.1
    | unrecorded _ _ hnot => exact hnot hrecord
  obtain ⟨result, m, hrun, -⟩ := exists_ok_of_wp hspec
  exact ⟨result, m, hrun⟩

/-! ## Rollbacks -/

/-- A rollback preview stores a plan in the user scope, and changes nothing else. -/
theorem wp_previewRollback {id : String} {manager : Manager} :
    wp (config.previewRollback call id) manager
      (fun plan m => config.Made plan ∧ plan.scope = .user ∧ m = manager.insert plan)
      (fun _ m => m = manager) := by
  simp only [previewRollback, store, wp_bind, wp_get, wp_ofResult, wp_modify, wp_pure]
  refine ⟨fun plan hplan => ?_, fun _ _ => trivial⟩
  obtain ⟨root, hroot, hplan⟩ := bind_eq_ok.1 hplan
  obtain ⟨hmade, hscope⟩ := made_rollbackPlan (scopeRoot_eq_ok hroot) hplan
  exact ⟨hmade, hscope, trivial⟩

/-- Some backup of the journal puts the content back : its rollback plan can be made and
applied, and leaves the content at the path. -/
def Restores (config : ManagerConfig) (previewCall applyCall : Call) (manager : Manager)
    (path : DiskPath) (content : Option Bytes) : Prop :=
  ∃ id plan m result m', config.previewRollback previewCall id manager = .ok plan m ∧
    config.apply applyCall plan.planId none m = .ok result m' ∧ m'.disk.files path = content

/-- A rollback in time, whose names are new and in which no call of the system fails. -/
structure Undisturbed (config : ManagerConfig) (previewCall applyCall : Call)
    (manager : Manager) : Prop where
  preview : previewCall.previewFaults = .clear
  apply : applyCall.faults = .clear
  fresh : config.Fresh applyCall manager.disk
  inTime : applyCall.now < planExpiresAt previewCall.now

/-- The plan for a file that still has the content of the apply. -/
theorem rollbackPlan_exact {id text : String} {entry : BackupJournalEntry}
    (hclear : call.previewFaults = .clear) (hfind : disk.journal.findBackup id = some entry)
    (hadapter : registryGet entry.source = some adapter)
    (hcurrent : disk.files (root.resolve (adapter.targetFor .user)) = some (asBytes merged))
    (hbackup : disk.files (inferBackupPath (root.resolve (adapter.targetFor .user))
      entry.backupDisplayPath) = some (asBytes text))
    (hhash : config.sha256Hex (asBytes text) = entry.contentSha256)
    (happlied : entry.appliedHash = some (config.sha256Hex (asBytes merged))) :
    config.rollbackPlan call root id disk = .ok (buildExactRestorePreview call entry root
      (adapter.targetFor .user) (config.sha256Hex (asBytes merged)) text disk) := by
  have hlossy : Utf8.lossy (asBytes text) = text := Utf8.lossy_encode text
  unfold rollbackPlan hashCurrent
  simp only [hfind, hadapter, hcurrent, hbackup, hclear, PreviewFaults.clear, Option.map_none,
    hhash, happlied, hlossy, ne_eq, not_true_eq_false, if_false]
  exact if_pos rfl

/-- A file whose backup is intact is put back. -/
theorem restores_of_intact {previewCall applyCall : Call} {text : String}
    (entry : BackupJournalEntry) {path : DiskPath}
    (hquiet : config.Undisturbed previewCall applyCall manager)
    (hpath : config.targetPath .user entry.source = some path)
    (hcurrent : manager.disk.files path = some (asBytes merged))
    (hintact : Intact (inferBackupPath path entry.backupDisplayPath) (asBytes text) (some entry)
      manager.disk) (hhash : config.sha256Hex (asBytes text) = entry.contentSha256)
    (happlied : entry.appliedHash = some (config.sha256Hex (asBytes merged))) :
    config.Restores previewCall applyCall manager path (some (asBytes text)) := by
  obtain ⟨root, adapter, hroot, hadapter, rfl⟩ := targetPath_eq_some.1 hpath
  have hplan := rollbackPlan_exact hquiet.preview (hintact.journal entry rfl) hadapter hcurrent
    hintact.file hhash happlied
  have hscope : config.scopeRoot previewCall .user = .ok root := by
    unfold scopeRoot
    rw [hroot, hquiet.preview]
    rfl
  have hspec : wp (config.previewRollback previewCall entry.id) manager
      (fun plan m => plan = buildExactRestorePreview previewCall entry root
        (adapter.targetFor .user) (config.sha256Hex (asBytes merged)) text manager.disk ∧
        m = manager.insert plan) fun _ _ => False := by
    simp only [previewRollback, store, wp_bind, wp_get, wp_ofResult, wp_modify, wp_pure]
    have hmade : (do
        let root ← config.scopeRoot previewCall .user
        config.rollbackPlan previewCall root entry.id manager.disk) = .ok _ :=
      bind_eq_ok.2 ⟨root, hscope, hplan⟩
    exact ⟨fun plan hok => ⟨Except.ok.inj (hok.symm.trans hmade), trivial⟩,
      fun e he => (by cases he.symm.trans hmade)⟩
  obtain ⟨plan, m, hpreview, hplan, rfl⟩ := exists_ok_of_wp hspec
  obtain ⟨hmade, -, -⟩ := wp_ok wp_previewRollback hpreview
  have hstored : (manager.insert plan).plans plan.planId = some plan := Function.update_self _ _ _
  have hbaseline : ((manager.disk.files (root.resolve (adapter.targetFor .user))).bind
      Utf8.decode).getD "" = merged := by
    rw [hcurrent]
    exact congrArg (fun t => t.getD "") (Utf8.decode_encode merged)
  obtain ⟨file, hfiles, hcanonical, hsha, hbase, hmerged⟩ : ∃ file, plan.files = [file] ∧
      file.canonicalPath = root.resolve (adapter.targetFor .user) ∧
      file.baselineSha256 = config.sha256Hex (asBytes merged) ∧ file.baselineText = merged ∧
      file.mergedText = text := by
    rw [hplan]
    refine ⟨_, rfl, rfl, rfl, ?_, rfl⟩
    rw [hquiet.preview]
    exact hbaseline
  have hplace : plan.files[0]? = some file := by
    rw [hfiles]
    rfl
  have hpre : (config.applyEnv applyCall).AllPreflight plan manager.disk := by
    intro i f hf
    obtain ⟨-, rfl⟩ := place_of_singleton hfiles hf
    rw [ApplyEnv.PreflightOk, hcanonical, hcurrent]
    refine ⟨?_, ?_, hsha.symm⟩
    · exact congrArg (fun f => f.hardlink i) hquiet.apply
    · exact congrArg (fun f => f.preflightHash i) hquiet.apply
  have hexpires : applyCall.now < plan.expiresAtMs := by
    rw [hplan]
    exact hquiet.inTime
  obtain ⟨result, m', happly⟩ := apply_succeeds hstored hmade hquiet.fresh hquiet.apply hexpires hpre
  have hrun := wp_ok (wp_apply hstored hmade) happly
  obtain ⟨l, hprogress⟩ := (hmade.succeeds hquiet.fresh hrun).progress
  refine ⟨entry.id, plan, _, result, m', hpreview, happly, ?_⟩
  rw [← hcanonical]
  by_cases hwrites : file.Writes
  · rw [hprogress.written 0 file (by rw [hfiles]; exact Nat.one_pos) hplace hwrites, hmerged]
  · -- the backup has the content of the apply
    rw [hprogress.kept 0 file hplace (Or.inr hwrites), hcanonical]
    have hsame : merged = text := by
      rw [← hbase, ← hmerged]
      exact not_not.1 hwrites
    rw [← hsame]
    exact hcurrent

/-- A rollback leaves a text where a text was. It is the same text, unless the path is that of
an agent in the user scope. -/
theorem rollback_leaves {previewCall applyCall : Call} {path : DiskPath} {content : Option Bytes}
    (hquiet : config.Undisturbed previewCall applyCall manager)
    (hcurrent : manager.disk.files path = some (asBytes merged))
    (h : config.Restores previewCall applyCall manager path content) :
    ∃ text, content = some (asBytes text) ∧
      (text = merged ∨ ∃ owner, config.targetPath .user owner = some path) := by
  obtain ⟨id, plan, m, result, m', hpreview, happly, rfl⟩ := h
  obtain ⟨hmade, hscope, rfl⟩ := wp_ok wp_previewRollback hpreview
  have hstored : (manager.insert plan).plans plan.planId = some plan := Function.update_self _ _ _
  have hrun := wp_ok (wp_apply hstored hmade) happly
  obtain ⟨adapter, root, file, hadapter, hroot, hfiles, hcanonical⟩ := hmade.target
  rw [hscope] at hroot hcanonical
  by_cases hpath : file.canonicalPath = path
  · obtain ⟨l, hprogress⟩ := (hmade.succeeds hquiet.fresh hrun).progress
    have hplace : plan.files[0]? = some file := by
      rw [hfiles]
      rfl
    subst hpath
    by_cases hwrites : file.Writes
    · refine ⟨file.mergedText, ?_, Or.inr ⟨plan.source, ?_⟩⟩
      · exact hprogress.written 0 file (by rw [hfiles]; exact Nat.one_pos) hplace hwrites
      · exact targetPath_eq_some.2 ⟨root, adapter, hroot, hadapter, hcanonical⟩
    · exact ⟨merged, (hprogress.kept 0 file hplace (Or.inr hwrites)).trans hcurrent, Or.inl rfl⟩
  · have hother : ∀ f ∈ plan.files, f.canonicalPath ≠ path := by
      intro f hf
      rw [hfiles, List.mem_singleton] at hf
      rw [hf]
      exact hpath
    have hbefore : Intact path (asBytes merged) none manager.disk :=
      ⟨hcurrent, fun e he => (by cases he), fun e he => (by cases he)⟩
    have hafter := wp_ok (ApplyEnv.keeps_applyPlan hother _ hbefore) hrun
    exact ⟨merged, hafter.file, Or.inl rfl⟩

/-! ## The restored file -/

/-- A successful apply of a stored plan and a file it has written, where the journal offers a
rollback. -/
structure Wrote (config : ManagerConfig) (before : Manager) (call : Call) (planId : String)
    (selected : Option (List String)) (plan : StoredPlan) (file : PlanFileSnapshot)
    (after : Manager) : Prop where
  stored : before.plans planId = some plan
  fresh : config.Fresh call before.disk
  applied : ∃ result, config.apply call planId selected before = .ok result after
  mem : file ∈ plan.files
  entry : ∃ entry, after.disk.journal.applies.getLast? = some entry ∧
    entry.rollbackAvailable = true ∧ ∃ r ∈ entry.fileResults,
      r.displayPath = file.displayPath ∧ r.outcome = .applied

/-- What an apply has left of a file it has written. -/
structure Written (config : ManagerConfig) (before : Manager) (call : Call) (plan : StoredPlan)
    (file : PlanFileSnapshot) (after : Manager) : Prop where
  only : plan.files = [file]
  writes : file.Writes
  hash : ∀ content, before.disk.files file.canonicalPath = some content →
    config.sha256Hex content = file.baselineSha256
  content : after.disk.files file.canonicalPath = some (asBytes file.mergedText)
  backup : ∀ content, before.disk.files file.canonicalPath = some content →
    Intact ((config.applyEnv call).backupPath call.now 0 file.canonicalPath) content
      (some ((config.applyEnv call).backupEntry plan call.now 0 file content)) after.disk

theorem Wrote.written {before after : Manager} (hmade : config.Made plan)
    (h : config.Wrote before call planId selected plan file after) :
    config.Written before call plan file after := by
  obtain ⟨result, happly⟩ := h.applied
  have hrun := wp_ok (wp_apply h.stored hmade) happly
  have hok := hmade.succeeds h.fresh hrun
  obtain ⟨l, hprogress⟩ := hok.progress
  obtain ⟨_, _, file', -, -, hfiles, -⟩ := hmade.target
  obtain rfl : file = file' := by
    have hmem := h.mem
    rw [hfiles, List.mem_singleton] at hmem
    exact hmem
  have hplace : plan.files[0]? = some file := by
    rw [hfiles]
    rfl
  have hlen : 0 < plan.files.length := by
    rw [hfiles]
    exact Nat.one_pos
  have hwrites : file.Writes := by
    obtain ⟨entry, hlast, -, r, hr, -, houtcome⟩ := h.entry
    obtain rfl := Option.some.inj (hok.recorded.symm.trans hlast)
    obtain ⟨j, f, hf, rfl⟩ := hok.results r hr
    obtain ⟨-, rfl⟩ := place_of_singleton hfiles hf
    intro hsame
    rw [ApplyEnv.fileResult, if_pos hsame] at houtcome
    cases houtcome
  refine ⟨hfiles, hwrites, fun content hcontent => ?_,
    hprogress.written 0 file hlen hplace hwrites, fun content hcontent => ?_⟩
  · have hpre := hok.preflight 0 file hplace
    rw [ApplyEnv.PreflightOk, hcontent] at hpre
    exact hpre.2.2
  · obtain ⟨hcopy, hentry⟩ := hprogress.backups 0 file content hlen hplace hwrites hcontent
    refine ⟨hcopy, fun e he => ?_, fun e he => ?_⟩
    · cases he
      exact hentry
    · cases he
      rw [hok.persisted]
      exact hentry

/-- A file that was written and has not changed since can be put back exactly if it was there
before, as a text, at the path of its agent in the user scope. -/
theorem rollback_restores (config : ManagerConfig) (disk : Disk) (acts laterActs : List ManagerAct)
    (before after later : Manager) (call previewCall applyCall : Call) (planId : String)
    (selected : Option (List String)) (plan : StoredPlan) (file : PlanFileSnapshot)
    (hbefore : run config.step (.new disk) acts = some before)
    (hwrote : config.Wrote before call planId selected plan file after)
    (hsha : config.sha256Hex (asBytes file.mergedText) ≠
      config.sha256Hex (asBytes file.baselineText))
    (hspares : Guarded config.step (fun _ => Spares
      ((config.applyEnv call).backupPath call.now 0 file.canonicalPath)) after laterActs)
    (hlater : run config.step after laterActs = some later)
    (hunchanged : later.disk.files file.canonicalPath = after.disk.files file.canonicalPath)
    (hquiet : config.Undisturbed previewCall applyCall later) :
    config.Restores previewCall applyCall later file.canonicalPath
        (before.disk.files file.canonicalPath) ↔
      (∃ text, before.disk.files file.canonicalPath = some (asBytes text)) ∧
        config.targetPath .user plan.source = some file.canonicalPath := by
  have hsound : config.Sound before := sound_of_run (sound_new disk) hbefore
  have hmade : config.Made plan := hsound planId plan hwrote.stored
  have hwritten := hwrote.written hmade
  have hcurrent : later.disk.files file.canonicalPath = some (asBytes file.mergedText) :=
    hunchanged.trans hwritten.content
  obtain ⟨adapter, root, file', hadapter, hroot, hfiles, hcanonical⟩ := hmade.target
  obtain rfl : file = file' := by
    rw [hwritten.only] at hfiles
    exact (List.cons.inj hfiles).1
  constructor
  · intro hrestores
    obtain ⟨text, htext, htexts⟩ := rollback_leaves hquiet hcurrent hrestores
    refine ⟨⟨text, htext⟩, ?_⟩
    have hnot : text = file.mergedText → plan.scope ≠ .project := by
      intro hmerged hproject
      apply hsha
      rw [← hmade.hash hproject file hwrote.mem, ← hwritten.hash _ htext, hmerged]
    cases hscope : plan.scope with
    | user =>
      rw [hscope] at hroot hcanonical
      exact targetPath_eq_some.2 ⟨root, adapter, hroot, hadapter, hcanonical⟩
    | project =>
      rcases htexts with hmerged | ⟨owner, howner⟩
      · exact absurd hscope (hnot hmerged)
      · obtain ⟨root', adapter', -, hadapter', hpath'⟩ := targetPath_eq_some.1 howner
        obtain rfl := source_of_target hadapter' hadapter (hpath'.symm.trans hcanonical)
        exact howner
  · rintro ⟨⟨text, htext⟩, hpath⟩
    rw [htext]
    obtain ⟨result, happly⟩ := hwrote.applied
    have happlied : run config.step before [.apply call planId selected] = some after := by
      simp [run, step, ManagerConfig.after, happly]
    have hsound' : config.Sound after := sound_of_run hsound happlied
    have hlong := backupPath_long (config.applyEnv call) call.now 0 file.canonicalPath
    have hintact := intact_of_run hlong hsound' (hwritten.backup _ htext) hspares hlater
    have hplain := hwrote.fresh.plain_name hadapter hcanonical 0
    refine restores_of_intact ((config.applyEnv call).backupEntry plan call.now 0 file
      (asBytes text)) hquiet hpath hcurrent ?_ rfl rfl
    rw [ApplyEnv.backupEntry, inferBackupPath_backupLabel hplain file.displayPath]
    exact hintact

/-! ## Sample runs -/

/-- A configuration file as an editor may write it. -/
def compactText : String := "\x7b\"version\":1\x7d"

/-- The same document as `pretty_json` prints it. -/
def prettyText : String := "\x7b\n  \"version\": 1\n\x7d"

/-- The document of the sample template. -/
def hooksText : String :=
  "\x7b\n  \"hooks\": \x7b\n    \"stop\": [\n      \x7b\n" ++
    "        \"command\": \"/opt/llm-notch-hook\"\n      \x7d\n    ]\n  \x7d\n\x7d"

def sampleTemplate : Json :=
  .obj [("hooks", .obj [("stop", .arr [.obj [("command", .str "/opt/llm-notch-hook")]])])]

/-- The functions of other crates on the texts of the samples. -/
def sampleConfig : ManagerConfig where
  workspaceRoot := some "/work"
  userScopeRoot := none
  homeDir := some "/home/user"
  canonicalize := id
  windows := false
  sha256Hex := fun bytes =>
    if bytes = asBytes compactText then
      "2430f1a2ad2982d0067885488a4c89e21ad1d7c83b115ba8f1b20acc88dfaea8"
    else if bytes = asBytes prettyText then
      "53d0bd0d7dcc4f7d177829026f9f473fd8a5b5cd328c483a883de9a70ba33f1f"
    else if bytes = asBytes "\x7b\x7d" then
      "44136fa355b3678a1146ad16f7e8649e94fb4fc21fe77e8310c060f61caaff8a"
    else "732f06596ff52bbbf6255676c35c13ba91b60c16562566eab5ce38b0dace0a2c"
  backupTimestamp := fun _ => "19700101T000000"
  loadTemplate := fun _ => .ok sampleTemplate
  fromStr := fun _ => some (.obj [("version", .num "1")])
  prettyJson := fun value => if (value.get "hooks").isSome then hooksText else prettyText

/-- A call whose names are made from a letter. -/
def sampleCall (letter : Char) (now : ℤ) : Call where
  now := now
  planId := "plan-1"
  backupUuid := fun i => String.ofList (letter :: List.replicate i letter)
  backupId := fun i => String.ofList (letter :: List.replicate i letter)
  journalId := "jrnl-1"
  faults := .clear
  previewFaults := .clear

/-- A disk with at most one file. -/
def oneFile (path : DiskPath) (content : Option Bytes) : Disk where
  files := Function.update (fun _ => none) path content
  journal := ⟨[], []⟩
  persisted := ⟨[], []⟩

/-- The hooks of Cursor in the home directory and in the workspace. -/
def homeHooks : DiskPath := ⟨"/home/user/.cursor", "hooks.json"⟩

def workHooks : DiskPath := ⟨"/work/.cursor", "hooks.json"⟩

/-- The manager after a preview of an edit of the hooks of Cursor. -/
def samplePreviewed (scope : ConnectorScope) (operation : PlanOperation) (disk : Disk) : Manager :=
  after (sampleConfig.preview (sampleCall 'a' 0) .cursor scope operation) (.new disk)

/-- And after the apply of its plan. -/
def sampleApplied (scope : ConnectorScope) (operation : PlanOperation) (disk : Disk) : Manager :=
  after (sampleConfig.apply (sampleCall 'a' 1) "plan-1" none) (samplePreviewed scope operation disk)

theorem run_samplePreviewed (scope : ConnectorScope) (operation : PlanOperation) (disk : Disk) :
    run sampleConfig.step (.new disk) [.preview (sampleCall 'a' 0) .cursor scope operation] =
      some (samplePreviewed scope operation disk) :=
  rfl

/-- The file of the stored plan. -/
def storedFile (manager : Manager) :
    Option (AgentSource × List (DiskPath × String × String × String)) :=
  (manager.plans "plan-1").map fun plan => (plan.source,
    plan.files.map fun f => (f.canonicalPath, f.displayPath, f.baselineText, f.mergedText))

/-- What the journal says of an apply : whether there is a rollback, and the applied files. -/
def recordedApply (manager : Manager) : Option (Bool × List String) :=
  match sampleConfig.apply (sampleCall 'a' 1) "plan-1" none manager with
  | .error .. => none
  | .ok _ m => m.disk.journal.applies.getLast?.map fun entry =>
    (entry.rollbackAvailable, (entry.fileResults.filter fun r => r.outcome = .applied).map
      ConnectorFileApplyResult.displayPath)

theorem sample_wrote (scope : ConnectorScope) (operation : PlanOperation) (disk : Disk)
    (path : DiskPath) (display baseline merged : String)
    (hstored : storedFile (samplePreviewed scope operation disk) =
      some (.cursor, [(path, display, baseline, merged)]))
    (hrecorded : recordedApply (samplePreviewed scope operation disk) = some (true, [display]))
    (hfresh : sampleConfig.Fresh (sampleCall 'a' 1) (samplePreviewed scope operation disk).disk) :
    ∃ plan file, plan.source = .cursor ∧ file.canonicalPath = path ∧
      file.baselineText = baseline ∧ file.mergedText = merged ∧
      sampleConfig.Wrote (samplePreviewed scope operation disk) (sampleCall 'a' 1) "plan-1" none
        plan file (sampleApplied scope operation disk) := by
  obtain ⟨plan, hplan, hfacts⟩ := Option.map_eq_some_iff.1 hstored
  obtain ⟨hsource, hfiles⟩ := Prod.mk.inj hfacts
  obtain ⟨file, hfiles, hfile⟩ := List.map_eq_singleton_iff.1 hfiles
  obtain ⟨hpath, hdisplay, hbaseline, hmerged⟩ : file.canonicalPath = path ∧
      file.displayPath = display ∧ file.baselineText = baseline ∧ file.mergedText = merged := by
    simpa using hfile
  have hmem : file ∈ plan.files := by
    rw [hfiles]
    exact List.mem_singleton_self file
  cases hrun : sampleConfig.apply (sampleCall 'a' 1) "plan-1" none
    (samplePreviewed scope operation disk) with
  | error e m =>
    rw [recordedApply, hrun] at hrecorded
    cases hrecorded
  | ok result m =>
    have hafter : sampleApplied scope operation disk = m := by
      simp [sampleApplied, after, hrun]
    rw [recordedApply, hrun] at hrecorded
    obtain ⟨entry, hlast, hentry⟩ := Option.map_eq_some_iff.1 hrecorded
    obtain ⟨havailable, hnames⟩ := Prod.mk.inj hentry
    obtain ⟨r, hr, hname⟩ := List.mem_map.1 (hnames ▸ List.mem_singleton_self display)
    obtain ⟨hr, houtcome⟩ := List.mem_filter.1 hr
    rw [hafter]
    exact ⟨plan, file, hsource, hpath, hbaseline, hmerged, hplan, hfresh, ⟨result, hrun⟩, hmem,
      entry, hlast, havailable, r, hr, hname.trans hdisplay.symm, of_decide_eq_true houtcome⟩

/-- The agents that have an adapter. -/
def supportedSources : List AgentSource :=
  [.cursor, .claudeCode, .codex, .gemini, .qwen, .antigravityCli, .copilotCli]

/-- The names of a call are new on a disk. -/
def newNames (letter : Char) (now : ℤ) (disk : Disk) : Bool :=
  [ConnectorScope.user, .project].all fun scope => supportedSources.all fun source =>
    (sampleConfig.targetPath scope source).all fun path =>
      (disk.files ((sampleConfig.applyEnv (sampleCall letter now)).backupPath now 0 path)).isNone

theorem sample_fresh {letter : Char} {now : ℤ} (hletter : letter ≠ '/')
    (hnames : newNames letter now disk = true)
    (hunused : disk.journal.findBackup ((sampleCall letter now).backupId 0) = none) :
    sampleConfig.Fresh (sampleCall letter now) disk := by
  refine ⟨fun bytes => ?_, ?_, fun i => ?_, fun scope source path hpath => ?_,
    fun i j h => ?_, hunused⟩
  · show (if _ then _ else if _ then _ else if _ then _ else _) ≠ ""
    split_ifs <;> decide
  · show '/' ∉ "19700101T000000".toList
    decide
  · show '/' ∉ (String.ofList (letter :: List.replicate i letter)).toList
    simp [hletter.symm]
  · obtain ⟨root, adapter, -, hadapter, -⟩ := targetPath_eq_some.1 hpath
    have hscope : scope ∈ [ConnectorScope.user, .project] := by
      cases scope <;> decide
    have hsource : source ∈ supportedSources := by
      cases source <;> first | decide | cases hadapter
    have hnew := List.all_eq_true.1 (List.all_eq_true.1 hnames scope hscope) source hsource
    rw [hpath] at hnew
    exact Option.isNone_iff_eq_none.1 hnew
  · have hlen : ((sampleCall letter now).backupId i).toList.length =
        ((sampleCall letter now).backupId j).toList.length := congrArg (fun id => id.toList.length) h
    simpa [sampleCall] using hlen

theorem sample_undisturbed {manager : Manager}
    (hnames : newNames 'b' 2 manager.disk = true)
    (hunused : manager.disk.journal.findBackup ((sampleCall 'b' 2).backupId 0) = none) :
    sampleConfig.Undisturbed (sampleCall 'b' 2) (sampleCall 'b' 2) manager :=
  ⟨rfl, rfl, sample_fresh (by decide) hnames hunused, by decide⟩

/-- The disk of a sample where the file was there. -/
def compactFile (path : DiskPath) : Disk :=
  oneFile path (some (asBytes compactText))

/-- The hooks of Cursor in the home directory are reformatted by a removal, and put back after
a restart. -/
theorem rollback_restores_homeHooks :
    ∃ plan file,
      sampleConfig.Wrote (samplePreviewed .user .remove (compactFile homeHooks))
        (sampleCall 'a' 1) "plan-1" none plan file
        (sampleApplied .user .remove (compactFile homeHooks)) ∧
      sampleConfig.Restores (sampleCall 'b' 2) (sampleCall 'b' 2)
        (.new (sampleApplied .user .remove (compactFile homeHooks)).disk)
        file.canonicalPath (some (asBytes compactText)) := by
  obtain ⟨plan, file, hsource, hpath, hbaseline, hmerged, hwrote⟩ := sample_wrote .user .remove
    (compactFile homeHooks) homeHooks "~/.cursor/hooks.json" compactText prettyText
    (by decide) (by decide)
    (sample_fresh (by decide) (by decide) (by decide))
  have hcontent : (samplePreviewed .user .remove (compactFile homeHooks)).disk.files
      file.canonicalPath = some (asBytes compactText) := by
    rw [hpath]
    decide
  have hquiet : sampleConfig.Undisturbed (sampleCall 'b' 2) (sampleCall 'b' 2)
      (.new (sampleApplied .user .remove (compactFile homeHooks)).disk) :=
    sample_undisturbed (by decide) (by decide)
  have hsha : sampleConfig.sha256Hex (asBytes file.mergedText) ≠
      sampleConfig.sha256Hex (asBytes file.baselineText) := by
    rw [hbaseline, hmerged]
    decide
  have huser : sampleConfig.targetPath .user plan.source = some file.canonicalPath := by
    rw [hsource, hpath]
    decide
  refine ⟨plan, file, hwrote, ?_⟩
  rw [← hcontent]
  exact (rollback_restores sampleConfig (compactFile homeHooks)
    [.preview (sampleCall 'a' 0) .cursor .user .remove] [.restart]
    (samplePreviewed .user .remove (compactFile homeHooks))
    (sampleApplied .user .remove (compactFile homeHooks))
    (.new (sampleApplied .user .remove (compactFile homeHooks)).disk)
    (sampleCall 'a' 1) (sampleCall 'b' 2) (sampleCall 'b' 2) "plan-1" none plan file
    (run_samplePreviewed _ _ _) hwrote hsha ⟨trivial, fun _ _ => trivial⟩ rfl rfl hquiet).2
    ⟨⟨compactText, hcontent⟩, huser⟩

/-- The hooks of Cursor in the workspace cannot be put back, and neither can those that were
not there before. -/
theorem rollback_leaves_changes :
    (∃ plan file,
      sampleConfig.Wrote (samplePreviewed .project .remove (compactFile workHooks))
        (sampleCall 'a' 1) "plan-1" none plan file
        (sampleApplied .project .remove (compactFile workHooks)) ∧
      (samplePreviewed .project .remove (compactFile workHooks)).disk.files file.canonicalPath =
        some (asBytes compactText) ∧
      sampleConfig.Undisturbed (sampleCall 'b' 2) (sampleCall 'b' 2)
        (sampleApplied .project .remove (compactFile workHooks)) ∧
      ¬ sampleConfig.Restores (sampleCall 'b' 2) (sampleCall 'b' 2)
        (sampleApplied .project .remove (compactFile workHooks))
        file.canonicalPath (some (asBytes compactText))) ∧
    ∃ plan file,
      sampleConfig.Wrote (samplePreviewed .user .install (oneFile homeHooks none))
        (sampleCall 'a' 1) "plan-1" none plan file
        (sampleApplied .user .install (oneFile homeHooks none)) ∧
      (samplePreviewed .user .install (oneFile homeHooks none)).disk.files file.canonicalPath =
        none ∧
      sampleConfig.Undisturbed (sampleCall 'b' 2) (sampleCall 'b' 2)
        (sampleApplied .user .install (oneFile homeHooks none)) ∧
      ¬ sampleConfig.Restores (sampleCall 'b' 2) (sampleCall 'b' 2)
        (sampleApplied .user .install (oneFile homeHooks none)) file.canonicalPath none := by
  constructor
  · obtain ⟨plan, file, -, hpath, -, -, hwrote⟩ := sample_wrote .project .remove
      (compactFile workHooks) workHooks "/work/.cursor/hooks.json" compactText prettyText
      (by decide) (by decide)
      (sample_fresh (by decide) (by decide) (by decide))
    have hquiet : sampleConfig.Undisturbed (sampleCall 'b' 2) (sampleCall 'b' 2)
        (sampleApplied .project .remove (compactFile workHooks)) :=
      sample_undisturbed (by decide) (by decide)
    have hcurrent : (sampleApplied .project .remove (compactFile workHooks)).disk.files workHooks =
        some (asBytes prettyText) := by
      decide
    refine ⟨plan, file, hwrote, ?_, hquiet, fun hrestores => ?_⟩
    · rw [hpath]
      decide
    · rw [hpath] at hrestores
      obtain ⟨text, htext, rfl | ⟨owner, howner⟩⟩ := rollback_leaves hquiet hcurrent hrestores
      · exact absurd htext (by decide)
      · have hnot : sampleConfig.targetPath .user owner ≠ some workHooks := by
          cases owner <;> decide
        exact hnot howner
  · obtain ⟨plan, file, -, hpath, -, -, hwrote⟩ := sample_wrote .user .install
      (oneFile homeHooks none) homeHooks "~/.cursor/hooks.json" "\x7b\x7d" hooksText
      (by decide) (by decide)
      (sample_fresh (by decide) (by decide) (by decide))
    have hquiet : sampleConfig.Undisturbed (sampleCall 'b' 2) (sampleCall 'b' 2)
        (sampleApplied .user .install (oneFile homeHooks none)) :=
      sample_undisturbed (by decide) (by decide)
    have hcurrent : (sampleApplied .user .install (oneFile homeHooks none)).disk.files homeHooks =
        some (asBytes hooksText) := by
      decide
    refine ⟨plan, file, hwrote, ?_, hquiet, fun hrestores => ?_⟩
    · rw [hpath]
      decide
    · rw [hpath] at hrestores
      obtain ⟨text, htext, -⟩ := rollback_leaves hquiet hcurrent hrestores
      cases htext

end ManagerConfig

end Connector

end LlmNotch
