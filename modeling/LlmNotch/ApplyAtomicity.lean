import LlmNotch.ApplySteps

/-!
# When a failed apply leaves nothing behind

`Progress` is the invariant of the loop of `apply_plan` : which files are written, where their
backups are, and what the journal says of them. From it follows what is on the disk when a file
fails and the earlier ones are put back (`Aftermath`), and how an apply fails at all (`Fails`).

`apply_all_or_nothing` : a failed apply leaves every file as it was exactly if the plan is
`Reversible`. It is not if a file that was created or cannot be put back comes before the one
that fails, or if the apply cannot be recorded after the files are written.
-/

namespace LlmNotch

namespace Connector

variable {env : ApplyEnv} {plan : StoredPlan} {now : ℤ} {disk : Disk} {i : ℕ}
  {content : Bytes} {file : PlanFileSnapshot}

/-! ## The files of a plan -/

/-- The file is written, not skipped. -/
def PlanFileSnapshot.Writes (file : PlanFileSnapshot) : Prop :=
  file.baselineText ≠ file.mergedText

instance (file : PlanFileSnapshot) : Decidable file.Writes :=
  inferInstanceAs (Decidable (file.baselineText ≠ file.mergedText))

/-- What the apply relies on from outside : hashes are not empty, the names and ids made from
a `Uuid` are new, and backup names are plain file names. -/
structure ApplyEnv.Fresh (env : ApplyEnv) (plan : StoredPlan) (now : ℤ) (disk : Disk) :
    Prop where
  hash : ∀ bytes, env.sha256Hex bytes ≠ ""
  plain : ∀ i f, plan.files[i]? = some f →
    '/' ∉ (env.backupFileName now i f.canonicalPath).toList
  absent : ∀ i f, plan.files[i]? = some f →
    disk.files (env.backupPath now i f.canonicalPath) = none
  apart : ∀ i f, plan.files[i]? = some f → ∀ g ∈ plan.files,
    env.backupPath now i f.canonicalPath ≠ g.canonicalPath
  names : ∀ i j f g, plan.files[i]? = some f → plan.files[j]? = some g →
    env.backupPath now i f.canonicalPath = env.backupPath now j g.canonicalPath → i = j
  ids : ∀ i j, env.backupId i = env.backupId j → i = j
  unused : ∀ i, i < plan.files.length → disk.journal.findBackup (env.backupId i) = none

namespace ApplyEnv

/-- The first `i` files of the plan are done, from the disk `before` to `disk`. -/
structure Progress (env : ApplyEnv) (plan : StoredPlan) (now : ℤ) (before : Disk) (i : ℕ)
    (applied : List AppliedBackup) (disk : Disk) : Prop where
  written : ∀ j f, j < i → plan.files[j]? = some f → f.Writes →
    disk.files f.canonicalPath = some (asBytes f.mergedText)
  kept : ∀ j f, plan.files[j]? = some f → i ≤ j ∨ ¬ f.Writes →
    disk.files f.canonicalPath = before.files f.canonicalPath
  backups : ∀ j f content, j < i → plan.files[j]? = some f → f.Writes →
    before.files f.canonicalPath = some content →
    disk.files (env.backupPath now j f.canonicalPath) = some content ∧
      disk.journal.findBackup (env.backupId j) = some (env.backupEntry plan now j f content)
  free : ∀ j f, i ≤ j → plan.files[j]? = some f →
    disk.files (env.backupPath now j f.canonicalPath) = none
  unused : ∀ j, i ≤ j → j < plan.files.length →
    disk.journal.findBackup (env.backupId j) = none
  mem_applied : ∀ a, a ∈ applied ↔ ∃ f, plan.files[a.index]? = some f ∧ a.index < i ∧ f.Writes ∧
    before.has f.canonicalPath = true ∧ a = ⟨a.index, f, env.backupId a.index⟩
  order : applied.Pairwise fun a b => a.index < b.index

variable {before : Disk} {applied : List AppliedBackup}

theorem progress_start (h : env.Fresh plan now disk) : env.Progress plan now disk 0 [] disk where
  written := fun j _ hj => absurd hj (Nat.not_lt_zero j)
  kept := fun _ _ _ _ => rfl
  backups := fun j _ _ hj => absurd hj (Nat.not_lt_zero j)
  free := fun j f _ hf => h.absent j f hf
  unused := fun j _ hj => h.unused j hj
  mem_applied := fun a => ⟨fun ha => (by cases ha), fun ⟨_, _, ha, _⟩ => absurd ha (Nat.not_lt_zero _)⟩
  order := List.Pairwise.nil

theorem Progress.skip (h : env.Progress plan now before i applied disk)
    (hi : plan.files[i]? = some file) (hskip : ¬ file.Writes) :
    env.Progress plan now before (i + 1) applied disk := by
  have hlt : ∀ j f, j < i + 1 → plan.files[j]? = some f → f.Writes → j < i := by
    intro j f hj hf hw
    rcases Nat.lt_succ_iff_lt_or_eq.1 hj with hj | rfl
    · exact hj
    · obtain rfl := Option.some.inj (hi.symm.trans hf)
      exact absurd hw hskip
  refine ⟨fun j f hj hf hw => h.written j f (hlt j f hj hf hw) hf hw, fun j f hf hor => ?_,
    fun j f c hj hf hw => h.backups j f c (hlt j f hj hf hw) hf hw,
    fun j f hj => h.free j f (by omega), fun j hj => h.unused j (by omega), fun a => ?_, h.order⟩
  · exact h.kept j f hf (hor.imp_left fun hj => by omega)
  · rw [h.mem_applied]
    constructor
    · rintro ⟨f, hf, ha, hrest⟩
      exact ⟨f, hf, by omega, hrest⟩
    · rintro ⟨f, hf, ha, hw, hrest⟩
      exact ⟨f, hf, hlt _ f ha hf hw, hw, hrest⟩

/-- The backup and the journal entry of an existing file, before its write. -/
theorem backedUp_backup (plan : StoredPlan) (now : ℤ)
    (hfile : disk.files file.canonicalPath = some content)
    (hunused : disk.journal.findBackup (env.backupId i) = none) :
    (env.backedUp plan now i file disk).files (env.backupPath now i file.canonicalPath) =
        some content ∧
      (env.backedUp plan now i file disk).journal.findBackup (env.backupId i) =
        some (env.backupEntry plan now i file content) := by
  rw [backedUp, hfile]
  refine ⟨Function.update_self _ _ _, (findBackup_withEntry _ _).trans ?_⟩
  rw [show (disk.write (env.backupPath now i file.canonicalPath) (some content)).journal =
    disk.journal from rfl, hunused, Option.none_or]
  exact if_pos rfl

end ApplyEnv

/-- Two places of a plan with one path are one place. -/
theorem index_of_path {j : ℕ} {f g : PlanFileSnapshot}
    (hdistinct : (plan.files.map PlanFileSnapshot.canonicalPath).Nodup)
    (hf : plan.files[i]? = some f) (hg : plan.files[j]? = some g)
    (hpath : f.canonicalPath = g.canonicalPath) : i = j := by
  have hi : (plan.files.map PlanFileSnapshot.canonicalPath)[i]? = some f.canonicalPath := by
    rw [List.getElem?_map, hf]
    rfl
  have hj : (plan.files.map PlanFileSnapshot.canonicalPath)[j]? = some g.canonicalPath := by
    rw [List.getElem?_map, hg]
    rfl
  exact (List.getElem?_inj (List.getElem?_eq_some_iff.1 hi).1 hdistinct).1
    (hi.trans ((congrArg some hpath).trans hj.symm))

namespace ApplyEnv

theorem Progress.write (h : env.Progress plan now before i applied disk)
    (hfresh : env.Fresh plan now before)
    (hdistinct : (plan.files.map PlanFileSnapshot.canonicalPath).Nodup)
    (hi : plan.files[i]? = some file) (hw : file.Writes) :
    env.Progress plan now before (i + 1)
      (applied ++ if before.has file.canonicalPath then [⟨i, file, env.backupId i⟩] else [])
      ((env.backedUp plan now i file disk).write file.canonicalPath
        (some (asBytes file.mergedText))) := by
  have hbacked : env.OnlyBackup now i file.canonicalPath disk
      (env.backedUp plan now i file disk) := onlyBackup_backedUp
  have hfile : disk.files file.canonicalPath = before.files file.canonicalPath :=
    h.kept i file hi (Or.inl (le_refl i))
  have hframe : ∀ p, p ≠ file.canonicalPath → p ≠ env.backupPath now i file.canonicalPath →
      ((env.backedUp plan now i file disk).write file.canonicalPath
        (some (asBytes file.mergedText))).files p = disk.files p := fun p hp hb =>
    (Function.update_of_ne hp _ _).trans (hbacked.files p hb)
  have htarget : ∀ j f, j ≠ i → plan.files[j]? = some f →
      ((env.backedUp plan now i file disk).write file.canonicalPath
        (some (asBytes file.mergedText))).files f.canonicalPath = disk.files f.canonicalPath := by
    intro j f hj hf
    refine hframe _ (fun heq => hj (index_of_path hdistinct hf hi heq)) ?_
    exact (hfresh.apart i file hi f (List.mem_of_getElem? hf)).symm
  have hbackup : ∀ j f, j ≠ i → plan.files[j]? = some f →
      ((env.backedUp plan now i file disk).write file.canonicalPath
        (some (asBytes file.mergedText))).files (env.backupPath now j f.canonicalPath) =
          disk.files (env.backupPath now j f.canonicalPath) := by
    intro j f hj hf
    refine hframe _ (hfresh.apart j f hf file (List.mem_of_getElem? hi)) fun heq => hj ?_
    exact hfresh.names j i f file hf hi heq
  have hjournal : ∀ j, j ≠ i → ((env.backedUp plan now i file disk).write file.canonicalPath
      (some (asBytes file.mergedText))).journal.findBackup (env.backupId j) =
        disk.journal.findBackup (env.backupId j) := fun j hj =>
    hbacked.journal _ fun heq => hj (hfresh.ids j i heq)
  refine ⟨fun j f hj hf hwf => ?_, fun j f hf hor => ?_, fun j f c hj hf hwf hc => ?_,
    fun j f hj hf => ?_, fun j hj hlen => ?_, fun a => ?_, ?_⟩
  · by_cases hji : j = i
    · subst hji
      obtain rfl := Option.some.inj (hi.symm.trans hf)
      exact Function.update_self _ _ _
    · rw [htarget j f hji hf]
      exact h.written j f (by omega) hf hwf
  · have hji : j ≠ i := by
      rintro rfl
      obtain rfl := Option.some.inj (hi.symm.trans hf)
      rcases hor with hlt | hskip
      · omega
      · exact hskip hw
    rw [htarget j f hji hf]
    exact h.kept j f hf (hor.imp_left fun hlt => by omega)
  · by_cases hji : j = i
    · subst hji
      obtain rfl := Option.some.inj (hi.symm.trans hf)
      have hlen : j < plan.files.length := (List.getElem?_eq_some_iff.1 hi).1
      obtain ⟨hcopy, hentry⟩ := backedUp_backup plan now (hfile.trans hc)
        (h.unused j (le_refl j) hlen)
      refine ⟨?_, hentry⟩
      refine (Function.update_of_ne ?_ _ _).trans hcopy
      exact hfresh.apart j file hi file (List.mem_of_getElem? hi)
    · rw [hbackup j f hji hf, hjournal j hji]
      exact h.backups j f c (by omega) hf hwf hc
  · rw [hbackup j f (by omega) hf]
    exact h.free j f (by omega) hf
  · rw [hjournal j (by omega)]
    exact h.unused j (by omega) hlen
  · rw [List.mem_append, h.mem_applied]
    constructor
    · rintro (⟨f, hf, ha, hrest⟩ | ha)
      · exact ⟨f, hf, by omega, hrest⟩
      · split_ifs at ha with hhas
        · obtain rfl := List.mem_singleton.1 ha
          exact ⟨file, hi, Nat.lt_succ_self i, hw, hhas, rfl⟩
        · cases ha
    · rintro ⟨f, hf, ha, hwf, hhas, hrec⟩
      by_cases hai : a.index = i
      · rw [hai] at hf hrec
        obtain rfl := Option.some.inj (hi.symm.trans hf)
        rw [if_pos hhas, hrec]
        exact Or.inr (List.mem_singleton_self _)
      · exact Or.inl ⟨f, hf, by omega, hwf, hhas, hrec⟩
  · refine List.pairwise_append.2 ⟨h.order, ?_, fun a ha b hb => ?_⟩
    · split_ifs
      · exact List.pairwise_singleton _ _
      · exact List.Pairwise.nil
    · split_ifs at hb
      · obtain rfl := List.mem_singleton.1 hb
        obtain ⟨_, -, hlt, -⟩ := (h.mem_applied a).1 ha
        exact hlt
      · cases hb

variable {k : ℕ} {d : Disk} {f : PlanFileSnapshot} {l : List AppliedBackup}

/-- After a file has failed, those before it can be put back. -/
theorem Progress.undoable (h : env.Progress plan now before k applied disk)
    (hfresh : env.Fresh plan now before)
    (hdistinct : (plan.files.map PlanFileSnapshot.canonicalPath).Nodup)
    (hk : plan.files[k]? = some file) (hd : env.OnlyTarget now k file.canonicalPath disk d) :
    env.Undoable now before.files applied.reverse d := by
  have hplace : ∀ a ∈ applied.reverse, plan.files[a.index]? = some a.file ∧ a.index < k ∧
      a.file.Writes ∧ before.has a.file.canonicalPath = true ∧
      a.backupId = env.backupId a.index := by
    intro a ha
    obtain ⟨f, hf, hlt, hw, hhas, hrec⟩ := (h.mem_applied a).1 (List.mem_reverse.1 ha)
    obtain rfl : a.file = f := congrArg AppliedBackup.file hrec
    exact ⟨hf, hlt, hw, hhas, congrArg AppliedBackup.backupId hrec⟩
  refine ⟨fun a ha => ?_, List.pairwise_reverse.2 h.order, List.pairwise_reverse.2 ?_,
    fun a ha b hb => ?_⟩
  · obtain ⟨hf, hlt, hw, hhas, hid⟩ := hplace a ha
    obtain ⟨content, hcontent⟩ := Option.isSome_iff_exists.1 hhas
    obtain ⟨hcopy, hentry⟩ := h.backups a.index a.file content hlt hf hw hcontent
    have hmem : a.file ∈ plan.files := List.mem_of_getElem? hf
    refine ⟨content, hcontent, ?_, ?_, ?_⟩
    · rw [hd.files _ (hfresh.apart k file hk a.file hmem).symm]
      · exact h.written a.index a.file hlt hf hw
      · exact fun heq => hlt.ne (index_of_path hdistinct hf hk heq)
    · rw [backupOf, hd.files]
      · exact hcopy
      · exact fun heq => hlt.ne (hfresh.names a.index k a.file file hf hk heq)
      · exact hfresh.apart a.index a.file hf file (List.mem_of_getElem? hk)
    · refine ⟨env.backupEntry plan now a.index a.file content, ?_, rfl, rfl,
        inferBackupPath_backupLabel (hfresh.plain a.index a.file hf) a.file.displayPath⟩
      rw [hid, hd.journal _ fun heq => hlt.ne (hfresh.ids a.index k heq)]
      exact hentry
  · refine h.order.imp_of_mem fun {a b} ha hb hab heq => ?_
    obtain ⟨hfa, -⟩ := hplace a (List.mem_reverse.2 ha)
    obtain ⟨hfb, -⟩ := hplace b (List.mem_reverse.2 hb)
    exact hab.ne (index_of_path hdistinct hfa hfb heq.symm)
  · obtain ⟨hfa, -⟩ := hplace a ha
    obtain ⟨hfb, -⟩ := hplace b hb
    exact hfresh.apart a.index a.file hfa b.file (List.mem_of_getElem? hfb)

/-! ## Where a plan stops -/

/-- Some step of the `i`-th file fails. -/
def Stops (env : ApplyEnv) (now : ℤ) (disk : Disk) (i : ℕ) (file : PlanFileSnapshot) : Prop :=
  file.Writes ∧ firstError (env.applyChecks now i file.canonicalPath
    (disk.has file.canonicalPath)) ≠ none

/-- The `k`-th file is the first to fail. -/
def StopsAt (env : ApplyEnv) (plan : StoredPlan) (now : ℤ) (disk : Disk) (k : ℕ)
    (file : PlanFileSnapshot) : Prop :=
  plan.files[k]? = some file ∧ env.Stops now disk k file ∧
    ∀ j g, j < k → plan.files[j]? = some g → ¬ env.Stops now disk j g

/-- No file fails. -/
def Completes (env : ApplyEnv) (plan : StoredPlan) (now : ℤ) (disk : Disk) : Prop :=
  ∀ k f, plan.files[k]? = some f → ¬ env.Stops now disk k f

/-- The disk after a plan stopped at its `k`-th file. -/
structure Aftermath (env : ApplyEnv) (plan : StoredPlan) (now : ℤ) (before : Disk) (k : ℕ)
    (file : PlanFileSnapshot) (applied : List AppliedBackup) (disk : Disk) : Prop where
  mem_applied : ∀ a, a ∈ applied ↔ ∃ f, plan.files[a.index]? = some f ∧ a.index < k ∧ f.Writes ∧
    before.has f.canonicalPath = true ∧ a = ⟨a.index, f, env.backupId a.index⟩
  stopped : disk.files file.canonicalPath =
    if env.applyLoses now k file.canonicalPath (before.has file.canonicalPath) then none
    else before.files file.canonicalPath
  created : ∀ j g, j < k → plan.files[j]? = some g → g.Writes →
    before.has g.canonicalPath = false → disk.files g.canonicalPath = some (asBytes g.mergedText)
  fates : ∀ a ∈ applied, disk.files a.file.canonicalPath =
    env.fate applied (before.files a.file.canonicalPath) a
  kept : ∀ j g, plan.files[j]? = some g → k < j ∨ j < k ∧ ¬ g.Writes →
    disk.files g.canonicalPath = before.files g.canonicalPath

/-- What the compensation leaves when the `k`-th file has failed. -/
theorem Progress.aftermath {t : Disk} (h : env.Progress plan now before k applied disk)
    (hfresh : env.Fresh plan now before)
    (hdistinct : (plan.files.map PlanFileSnapshot.canonicalPath).Nodup)
    (hk : plan.files[k]? = some file) (hd : env.OnlyTarget now k file.canonicalPath disk d)
    (ht : env.Undone before.files applied.reverse d t) :
    env.Aftermath plan now before k file applied.reverse t := by
  have hmem : ∀ a, a ∈ applied.reverse ↔ ∃ f, plan.files[a.index]? = some f ∧ a.index < k ∧
      f.Writes ∧ before.has f.canonicalPath = true ∧ a = ⟨a.index, f, env.backupId a.index⟩ := by
    intro a
    rw [List.mem_reverse, h.mem_applied]
  have hfile : disk.files file.canonicalPath = before.files file.canonicalPath :=
    h.kept k file hk (Or.inl (le_refl k))
  have hhas : disk.has file.canonicalPath = before.has file.canonicalPath := by
    rw [Disk.has, Disk.has, hfile]
  -- a file that has no backup is not touched by the compensation
  have hother : ∀ j g, plan.files[j]? = some g →
      (j < k → g.Writes → before.has g.canonicalPath = false) →
      t.files g.canonicalPath = d.files g.canonicalPath := by
    intro j g hg hno
    refine ht.others _ fun a ha heq => ?_
    obtain ⟨f, hf, hlt, hw, hbefore, hrec⟩ := (hmem a).1 ha
    rw [congrArg AppliedBackup.file hrec] at heq
    obtain rfl := index_of_path hdistinct hf hg heq
    obtain rfl := Option.some.inj (hf.symm.trans hg)
    rw [hno hlt hw] at hbefore
    cases hbefore
  have hframe : ∀ j g, plan.files[j]? = some g → j ≠ k →
      d.files g.canonicalPath = disk.files g.canonicalPath := fun j g hg hjk =>
    hd.files _ (hfresh.apart k file hk g (List.mem_of_getElem? hg)).symm
      fun heq => hjk (index_of_path hdistinct hg hk heq)
  refine ⟨hmem, ?_, fun j g hj hg hw hno => ?_, ht.fates, fun j g hg hor => ?_⟩
  · rw [hother k file hk fun hlt => absurd hlt (lt_irrefl k), hd.target, hhas, hfile]
  · rw [hother j g hg fun _ _ => hno, hframe j g hg hj.ne]
    exact h.written j g hj hg hw
  · rw [hother j g hg, hframe j g hg]
    · exact h.kept j g hg (hor.imp (fun hlt => hlt.le) fun hskip => hskip.2)
    · omega
    · intro hlt hw
      rcases hor with hgt | ⟨-, hskip⟩
      · omega
      · exact absurd hw hskip

/-- The result of the `i`-th file. -/
def fileResult (env : ApplyEnv) (before : Disk) (i : ℕ) (file : PlanFileSnapshot) :
    ConnectorFileApplyResult :=
  if file.baselineText = file.mergedText then
    ⟨file.displayPath, .skipped, none, some file.baselineSha256, some "No changes needed"⟩
  else env.appliedResult i file (before.has file.canonicalPath)

/-- The loop went through all files, and added their results to `results`. -/
structure Through (env : ApplyEnv) (plan : StoredPlan) (now : ℤ) (before : Disk)
    (results all : List ConnectorFileApplyResult) (d : Disk) : Prop where
  completes : env.Completes plan now before
  progress : ∃ l, env.Progress plan now before plan.files.length l d
  results : ∀ r ∈ all, r ∈ results ∨
    ∃ j f, plan.files[j]? = some f ∧ r = env.fileResult before j f

/-- The result of the `i`-th file is one of those added. -/
theorem Through.of_append {results all : List ConnectorFileApplyResult}
    (hi : plan.files[i]? = some file)
    (h : env.Through plan now before (results ++ [env.fileResult before i file]) all d) :
    env.Through plan now before results all d := by
  refine ⟨h.completes, h.progress, fun r hr => ?_⟩
  rcases h.results r hr with hmem | hnew
  · rcases List.mem_append.1 hmem with hold | hnew
    · exact Or.inl hold
    · exact Or.inr ⟨i, file, hi, List.mem_singleton.1 hnew⟩
  · exact Or.inr hnew

/-- The loop over the files from place `i` on. -/
theorem wp_applyFiles (hfresh : env.Fresh plan now before)
    (hdistinct : (plan.files.map PlanFileSnapshot.canonicalPath).Nodup)
    (hhash : ∀ f ∈ plan.files, ∀ content, before.files f.canonicalPath = some content →
      env.sha256Hex content = f.baselineSha256)
    (rest : List PlanFileSnapshot) (results : List ConnectorFileApplyResult)
    (hrest : plan.files.drop i = rest) (h : env.Progress plan now before i applied disk)
    (hclear : ∀ j g, j < i → plan.files[j]? = some g → ¬ env.Stops now before j g) :
    wp (env.applyFiles plan now i rest results applied) disk
      (fun all d => env.Through plan now before results all d)
      (fun _ d => ∃ k f l, env.StopsAt plan now before k f ∧
        env.Aftermath plan now before k f l d) := by
  induction rest generalizing i results applied disk with
  | nil =>
    have hlen : plan.files.length ≤ i := List.drop_eq_nil_iff.1 hrest
    have hall : ∀ j, j < plan.files.length → j < i := fun j hj => by omega
    refine ⟨fun k f hf => hclear k f (hall k (List.getElem?_eq_some_iff.1 hf).1) hf,
      ⟨applied, ?_⟩, fun r hr => Or.inl hr⟩
    have hlt : ∀ j f, plan.files[j]? = some f → j < plan.files.length := fun j f hf =>
      (List.getElem?_eq_some_iff.1 hf).1
    refine ⟨fun j f hj hf => h.written j f (hall j hj) hf, fun j f hf hor => ?_,
      fun j f c hj hf => h.backups j f c (hall j hj) hf, fun j f hj hf => ?_,
      fun j hj hlen' => ?_, fun a => ?_, h.order⟩
    · rcases hor with hge | hskip
      · exact absurd (hlt j f hf) (by omega)
      · exact h.kept j f hf (Or.inr hskip)
    · exact absurd (hlt j f hf) (by omega)
    · omega
    · rw [h.mem_applied]
      constructor
      · rintro ⟨f, hf, -, hrec⟩
        exact ⟨f, hf, hlt _ f hf, hrec⟩
      · rintro ⟨f, hf, hlt', hrec⟩
        exact ⟨f, hf, hall _ hlt', hrec⟩
  | cons file rest ih =>
    have hi : plan.files[i]? = some file := by
      rw [← List.head?_drop, hrest]
      rfl
    have hdrop : plan.files.drop (i + 1) = rest := by
      rw [← List.tail_drop, hrest]
      rfl
    have hfile : disk.files file.canonicalPath = before.files file.canonicalPath :=
      h.kept i file hi (Or.inl (le_refl i))
    have hhas : disk.has file.canonicalPath = before.has file.canonicalPath := by
      rw [Disk.has, Disk.has, hfile]
    have hnext : ¬ env.Stops now before i file →
        ∀ j g, j < i + 1 → plan.files[j]? = some g → ¬ env.Stops now before j g := by
      intro hnot j g hj hg
      rcases Nat.lt_succ_iff_lt_or_eq.1 hj with hj | rfl
      · exact hclear j g hj hg
      · obtain rfl := Option.some.inj (hi.symm.trans hg)
        exact hnot
    have hresult : ∀ all d,
        env.Through plan now before (results ++ [env.fileResult before i file]) all d →
        env.Through plan now before results all d := fun _ _ => Through.of_append hi
    unfold applyFiles
    split_ifs with hsame
    · rw [fileResult, if_pos hsame] at hresult
      exact wp_mono (ih _ hdrop (h.skip hi fun hw => hw hsame)
        (hnext fun hstop => hstop.1 hsame)) hresult fun _ _ he => he
    · rw [fileResult, if_neg hsame] at hresult
      rw [wp_bind, wp_attempt]
      have hsingle := wp_applySingleFile plan hsame
        (fun content hc => hhash file (List.mem_of_getElem? hi) content (hfile.symm.trans hc))
        (h.free i file (le_refl i) hi) (hfresh.apart i file hi file (List.mem_of_getElem? hi))
      rw [hhas] at hsingle
      refine wp_mono hsingle ?_ ?_
      · rintro result d ⟨hchecks, rfl, rfl⟩
        have happlied : ((env.appliedResult i file (before.has file.canonicalPath)).backupJournalId.map
            fun id => (⟨i, file, id⟩ : AppliedBackup)).toList =
            if before.has file.canonicalPath then [⟨i, file, env.backupId i⟩] else [] := by
          unfold appliedResult
          cases before.has file.canonicalPath <;> rfl
        dsimp only
        rw [happlied]
        exact wp_mono (ih _ hdrop (h.write hfresh hdistinct hi hsame)
          (hnext fun hstop => hstop.2 hchecks)) hresult fun _ _ he => he
      · rintro e d ⟨hchecks, hd⟩
        dsimp only
        rw [wp_bind]
        have hstop : env.StopsAt plan now before i file := by
          refine ⟨hi, ⟨hsame, ?_⟩, hclear⟩
          rw [hchecks]
          exact Option.some_ne_none e
        refine wp_mono (wp_compensate hfresh.hash (h.undoable hfresh hdistinct hi hd)) ?_ ?_
        · intro _ t ht
          exact ⟨i, file, _, hstop, h.aftermath hfresh hdistinct hi hd ht⟩
        · intro _ t ht
          exact ⟨i, file, _, hstop, h.aftermath hfresh hdistinct hi hd ht⟩

/-! ## Before the first write -/

/-- The `i`-th file passes its preflight. -/
def PreflightOk (env : ApplyEnv) (disk : Disk) (i : ℕ) (file : PlanFileSnapshot) : Prop :=
  match disk.files file.canonicalPath with
  | some content => env.faults.hardlink i = none ∧ env.faults.preflightHash i = none ∧
    env.sha256Hex content = file.baselineSha256
  | none => file.isNewFile = true

theorem wp_preflight : wp (env.preflight i file) disk
    (fun _ d => env.PreflightOk disk i file ∧ d = disk)
    (fun _ d => ¬ env.PreflightOk disk i file ∧ d = disk) := by
  unfold preflight PreflightOk
  simp only [wp_bind, wp_get]
  cases disk.files file.canonicalPath with
  | none =>
    dsimp only
    split_ifs with hnew
    · exact ⟨by simp [hnew], rfl⟩
    · exact ⟨by simpa using hnew, rfl⟩
  | some content =>
    simp only [wp_bind, wp_steps, firstError_cons, firstError_nil, Option.or_none]
    refine ⟨fun hclear => ?_, fun e he => ⟨?_, trivial⟩⟩
    · have hchecks : env.faults.hardlink i = none ∧ env.faults.preflightHash i = none := by
        simpa using hclear
      split_ifs with hchanged
      · exact ⟨fun hok => hchanged hok.2.2, rfl⟩
      · exact ⟨⟨hchecks.1, hchecks.2, not_not.1 hchanged⟩, rfl⟩
    · rintro ⟨hlink, hread, -⟩
      simp [hlink, hread] at he

theorem wp_preflightFiles (rest : List PlanFileSnapshot) (hrest : plan.files.drop i = rest) :
    wp (env.preflightFiles i rest) disk
    (fun _ d => (∀ j f, i ≤ j → plan.files[j]? = some f → env.PreflightOk disk j f) ∧ d = disk)
    (fun _ d => (∃ j f, plan.files[j]? = some f ∧ ¬ env.PreflightOk disk j f) ∧ d = disk) := by
  induction rest generalizing i with
  | nil =>
    refine ⟨fun j f hj hf => ?_, rfl⟩
    have hlen : plan.files.length ≤ i := List.drop_eq_nil_iff.1 hrest
    exact absurd (List.getElem?_eq_some_iff.1 hf).1 (by omega)
  | cons file rest ih =>
    have hi : plan.files[i]? = some file := by
      rw [← List.head?_drop, hrest]
      rfl
    have hdrop : plan.files.drop (i + 1) = rest := by
      rw [← List.tail_drop, hrest]
      rfl
    unfold preflightFiles
    rw [wp_bind]
    refine wp_mono wp_preflight ?_ ?_
    · rintro _ d ⟨hok, rfl⟩
      refine wp_mono (ih hdrop) ?_ (fun _ _ he => he)
      rintro _ d ⟨hall, rfl⟩
      refine ⟨fun j f hj hf => ?_, rfl⟩
      rcases Nat.eq_or_lt_of_le hj with rfl | hlt
      · obtain rfl := Option.some.inj (hi.symm.trans hf)
        exact hok
      · exact hall j f hlt hf
    · rintro e d ⟨hfails, rfl⟩
      exact ⟨⟨i, file, hi, hfails⟩, rfl⟩

/-! ## The whole plan -/

/-- The checks of `record_apply`. -/
def recordChecks (env : ApplyEnv) : List (Option ConnectorError) :=
  env.persistChecks .record 0

/-- Every file passes its preflight. -/
def AllPreflight (env : ApplyEnv) (plan : StoredPlan) (disk : Disk) : Prop :=
  ∀ i f, plan.files[i]? = some f → env.PreflightOk disk i f

/-- How an apply fails. -/
inductive Fails (env : ApplyEnv) (plan : StoredPlan) (now : ℤ) (before d : Disk) : Prop
  | preflight (hfails : ¬ env.AllPreflight plan before) (hd : d = before)
  | stopped (hpre : env.AllPreflight plan before) {k : ℕ} {f : PlanFileSnapshot}
    {l : List AppliedBackup} (hstop : env.StopsAt plan now before k f)
    (hafter : env.Aftermath plan now before k f l d)
  | unrecorded (hpre : env.AllPreflight plan before) (hdone : env.Completes plan now before)
    (hrecord : firstError env.recordChecks ≠ none)
    (hwritten : ∀ f ∈ plan.files, f.Writes →
      d.files f.canonicalPath = some (asBytes f.mergedText))
    (hkept : ∀ f ∈ plan.files, ¬ f.Writes →
      d.files f.canonicalPath = before.files f.canonicalPath)

/-- A plan with files that ran to its end and was recorded. -/
structure Succeeds (env : ApplyEnv) (plan : StoredPlan) (now : ℤ) (before : Disk)
    (result : ConnectorApplyResult) (d : Disk) : Prop where
  preflight : env.AllPreflight plan before
  progress : ∃ l, env.Progress plan now before plan.files.length l d
  results : ∀ r ∈ result.fileResults,
    ∃ j f, plan.files[j]? = some f ∧ r = env.fileResult before j f
  clear : firstError env.recordChecks = none
  recorded : d.journal.applies.getLast? = some ⟨env.journalId, plan.planId, plan.source,
    plan.scope, now, some now, result.fileResults,
    result.fileResults.any fun r => r.outcome = .applied⟩
  persisted : d.persisted = d.journal

theorem wp_applyPlan (hfresh : env.Fresh plan now before)
    (hdistinct : (plan.files.map PlanFileSnapshot.canonicalPath).Nodup) :
    wp (env.applyPlan plan now) before
      (fun result d => env.Completes plan now before ∧
        (plan.files = [] ∨ env.Succeeds plan now before result d))
      (fun _ d => env.Fails plan now before d) := by
  unfold applyPlan
  split_ifs with hempty
  · have hnil : plan.files = [] := List.isEmpty_iff.1 hempty
    refine ⟨fun k f hf => ?_, Or.inl hnil⟩
    rw [hnil] at hf
    cases hf
  simp only [wp_bind]
  refine wp_mono (wp_preflightFiles plan.files rfl) ?_ ?_
  · rintro _ d ⟨hall, rfl⟩
    have hpre : env.AllPreflight plan d := fun i f => hall i f (Nat.zero_le i)
    have hhash : ∀ f ∈ plan.files, ∀ content, d.files f.canonicalPath = some content →
        env.sha256Hex content = f.baselineSha256 := by
      intro f hf content hcontent
      obtain ⟨j, hj⟩ := List.mem_iff_getElem?.1 hf
      have hok := hpre j f hj
      rw [PreflightOk, hcontent] at hok
      exact hok.2.2
    refine wp_mono (wp_applyFiles hfresh hdistinct hhash plan.files [] rfl
      (progress_start hfresh) fun j _ hj => absurd hj (Nat.not_lt_zero j)) ?_ ?_
    · rintro results d' ⟨hdone, ⟨l, hprogress⟩, hresults⟩
      simp only [recordApply, persist, wp_bind, wp_modify, wp_steps, wp_pure]
      refine ⟨fun hrecord => ⟨hdone, Or.inr ⟨hpre, ⟨l, ?_⟩, fun r hr => ?_, hrecord, ?_, rfl⟩⟩,
        fun e he => ?_⟩
      · -- recording the apply leaves the files and the backups alone
        exact ⟨hprogress.written, hprogress.kept, hprogress.backups, hprogress.free,
          hprogress.unused, hprogress.mem_applied, hprogress.order⟩
      · exact (hresults r hr).resolve_left List.not_mem_nil
      · exact List.getLast?_concat
      have hrecord : firstError env.recordChecks ≠ none := by
        unfold recordChecks persistChecks
        rw [he]
        exact Option.some_ne_none e
      refine .unrecorded hpre hdone hrecord (fun f hf hw => ?_) fun f hf hskip => ?_
      · obtain ⟨j, hj⟩ := List.mem_iff_getElem?.1 hf
        exact hprogress.written j f (List.getElem?_eq_some_iff.1 hj).1 hj hw
      · obtain ⟨j, hj⟩ := List.mem_iff_getElem?.1 hf
        exact hprogress.kept j f hj (Or.inr hskip)
    · rintro e d' ⟨k, f, l, hstop, hafter⟩
      exact .stopped hpre hstop hafter
  · rintro e d ⟨⟨j, f, hf, hfails⟩, rfl⟩
    exact .preflight (fun hall => hfails (hall j f hf)) rfl

/-! ## All or nothing -/

/-- When the plan stops at its `k`-th file, the `j`-th is put back : it has a backup, its
content can be read, and no step of putting back the files from the `j`-th on fails. -/
def PutBack (env : ApplyEnv) (plan : StoredPlan) (disk : Disk) (k j : ℕ)
    (file : PlanFileSnapshot) : Prop :=
  disk.has file.canonicalPath = true ∧ env.undoSkips j = false ∧
    ∀ n f, j ≤ n → n < k → plan.files[n]? = some f → f.Writes →
      disk.has f.canonicalPath = true → env.undoAborts n = false

/-- When the plan stops at its `k`-th file, the `j`-th has its old content although it need not
be put back : the new text was its content already, and the attempt to write it again does not
lose the file. -/
def Unharmed (env : ApplyEnv) (plan : StoredPlan) (disk : Disk) (k j : ℕ)
    (file : PlanFileSnapshot) : Prop :=
  disk.files file.canonicalPath = some (asBytes file.mergedText) ∧
    ¬ (env.undoAborts j = true ∧ env.undoLoses j = true ∧
      ∀ n f, j < n → n < k → plan.files[n]? = some f → f.Writes →
        disk.has f.canonicalPath = true → env.undoAborts n = false)

/-- If all files pass the preflight and some step fails later : the first file to fail is not
lost, and those written before it get or have their old content; and an apply that could not
be recorded has changed nothing. -/
def Reversible (env : ApplyEnv) (plan : StoredPlan) (now : ℤ) (disk : Disk) : Prop :=
  env.AllPreflight plan disk →
    (∀ k f, env.StopsAt plan now disk k f →
      env.applyLoses now k f.canonicalPath (disk.has f.canonicalPath) = false ∧
      ∀ j g, j < k → plan.files[j]? = some g → g.Writes →
        env.PutBack plan disk k j g ∨ env.Unharmed plan disk k j g) ∧
    (env.Completes plan now disk → firstError env.recordChecks ≠ none →
      ∀ f ∈ plan.files, f.Writes → disk.files f.canonicalPath = some (asBytes f.mergedText))

theorem StopsAt.unique {k' : ℕ} {f' : PlanFileSnapshot} (h : env.StopsAt plan now disk k f)
    (h' : env.StopsAt plan now disk k' f') : k = k' ∧ f = f' := by
  obtain ⟨hf, hstop, hfirst⟩ := h
  obtain ⟨hf', hstop', hfirst'⟩ := h'
  obtain hlt | rfl | hgt := lt_trichotomy k k'
  · exact absurd hstop (hfirst' k f hlt hf)
  · exact ⟨rfl, Option.some.inj (hf.symm.trans hf')⟩
  · exact absurd hstop' (hfirst k' f' hgt hf')

/-- Some file after the `j`-th ends the compensation. -/
theorem any_aborts_iff (j : ℕ) (h : env.Aftermath plan now before k f l d) :
    (l.any fun b => j < b.index && env.undoAborts b.index) = false ↔
      ∀ n g, j < n → n < k → plan.files[n]? = some g → g.Writes →
        before.has g.canonicalPath = true → env.undoAborts n = false := by
  rw [List.any_eq_false]
  constructor
  · intro hnone n g hj hk hg hw hhas
    have hmem : (⟨n, g, env.backupId n⟩ : AppliedBackup) ∈ l :=
      (h.mem_applied _).2 ⟨g, hg, hk, hw, hhas, rfl⟩
    simpa [hj] using hnone _ hmem
  · intro hnone b hb
    obtain ⟨g, hg, hk, hw, hhas, -⟩ := (h.mem_applied b).1 hb
    by_cases hj : j < b.index
    · simp [hnone b.index g hj hk hg hw hhas]
    · simp [hj]

/-- A file before the one that failed has its old content exactly if it was put back or came
to no harm. -/
theorem Aftermath.old_content_iff {j : ℕ} {g : PlanFileSnapshot}
    (h : env.Aftermath plan now before k f l d) (hj : j < k) (hg : plan.files[j]? = some g)
    (hw : g.Writes) :
    d.files g.canonicalPath = before.files g.canonicalPath ↔
      env.PutBack plan before k j g ∨ env.Unharmed plan before k j g := by
  cases hhas : before.has g.canonicalPath with
  | false =>
    have hnone : before.files g.canonicalPath = none := by
      simpa [Disk.has] using hhas
    rw [h.created j g hj hg hw hhas, hnone]
    constructor
    · intro heq
      cases heq
    · rintro (⟨hbacked, -⟩ | ⟨hcontent, -⟩)
      · rw [hhas] at hbacked
        cases hbacked
      · rw [hnone] at hcontent
        cases hcontent
  | true =>
    have hmem : (⟨j, g, env.backupId j⟩ : AppliedBackup) ∈ l :=
      (h.mem_applied _).2 ⟨g, hg, hj, hw, hhas, rfl⟩
    have hlater := any_aborts_iff j h
    have hself : (∀ n f, j ≤ n → n < k → plan.files[n]? = some f → f.Writes →
        before.has f.canonicalPath = true → env.undoAborts n = false) ↔
        env.undoAborts j = false ∧ ∀ n f, j < n → n < k → plan.files[n]? = some f → f.Writes →
          before.has f.canonicalPath = true → env.undoAborts n = false := by
      constructor
      · exact fun hall => ⟨hall j g (le_refl j) hj hg hw hhas, fun n f hn => hall n f hn.le⟩
      · rintro ⟨hj', hall⟩ n f hn
        rcases Nat.eq_or_lt_of_le hn with rfl | hlt
        · exact fun _ _ _ _ => hj'
        · exact hall n f hlt
    obtain ⟨content, hcontent⟩ := Option.isSome_iff_exists.1 hhas
    have hswap : asBytes g.mergedText = content ↔ content = asBytes g.mergedText := eq_comm
    unfold PutBack Unharmed
    rw [h.fates _ hmem, hself, ← hlater]
    unfold fate
    dsimp only
    rw [hcontent]
    generalize (l.any fun b => j < b.index && env.undoAborts b.index) = later
    cases later with
    | true => simp [hswap]
    | false =>
      cases env.undoAborts j with
      | true => cases env.undoLoses j <;> simp [hswap]
      | false => cases env.undoSkips j <;> simp [hhas, hswap]

/-- A failed apply leaves every file of the plan as it was, and no new file, exactly if the
plan is reversible. -/
theorem apply_all_or_nothing (env : ApplyEnv) (plan : StoredPlan) (now : ℤ) (disk : Disk)
    (hfresh : env.Fresh plan now disk)
    (hdistinct : (plan.files.map PlanFileSnapshot.canonicalPath).Nodup) :
    (∀ e d, env.applyPlan plan now disk = .error e d →
      ∀ f ∈ plan.files, d.files f.canonicalPath = disk.files f.canonicalPath) ↔
    env.Reversible plan now disk := by
  have hspec := wp_applyPlan hfresh hdistinct
  constructor
  · intro hkeeps hpre
    refine ⟨fun k f hstop => ?_, fun hdone hrecord f hf hw => ?_⟩
    · cases hrun : env.applyPlan plan now disk with
      | ok result d => exact absurd hstop.2.1 ((wp_ok hspec hrun).1 k f hstop.1)
      | error e d =>
        cases wp_error hspec hrun with
        | preflight hfails => exact absurd hpre hfails
        | unrecorded _ hdone => exact absurd hstop.2.1 (hdone k f hstop.1)
        | stopped _ hstop' hafter =>
          obtain ⟨rfl, rfl⟩ := hstop.unique hstop'
          refine ⟨?_, fun j g hj hg hw => ?_⟩
          · have hsame := hkeeps e d hrun f (List.mem_of_getElem? hstop.1)
            rw [hafter.stopped] at hsame
            by_contra hloses
            rw [if_pos (by simpa using hloses)] at hsame
            -- only a file that was there can be lost
            have hhas : disk.has f.canonicalPath = false := by
              rw [Disk.has, ← hsame]
              rfl
            simp [applyLoses, replaceLoses, hhas] at hloses
          · exact (hafter.old_content_iff hj hg hw).1
              (hkeeps e d hrun g (List.mem_of_getElem? hg))
    · cases hrun : env.applyPlan plan now disk with
      | ok result d =>
        rcases (wp_ok hspec hrun).2 with hnil | hok
        · rw [hnil] at hf
          cases hf
        · exact absurd hok.clear hrecord
      | error e d =>
        cases wp_error hspec hrun with
        | preflight hfails => exact absurd hpre hfails
        | stopped _ hstop => exact absurd hstop.2.1 (hdone _ _ hstop.1)
        | unrecorded _ _ _ hwritten =>
          exact (hkeeps e d hrun f hf).symm.trans (hwritten f hf hw)
  · intro hrev e d hrun f hf
    obtain ⟨j, hj⟩ := List.mem_iff_getElem?.1 hf
    cases wp_error hspec hrun with
    | preflight _ hd => rw [hd]
    | @stopped hpre k g l hstop hafter =>
      obtain ⟨hkept, hbefore⟩ := (hrev hpre).1 k g hstop
      obtain hlt | rfl | hgt := lt_trichotomy j k
      · by_cases hw : f.Writes
        · exact (hafter.old_content_iff hlt hj hw).2 (hbefore j f hlt hj hw)
        · exact hafter.kept j f hj (Or.inr ⟨hlt, hw⟩)
      · obtain rfl := Option.some.inj (hstop.1.symm.trans hj)
        rw [hafter.stopped, hkept]
        rfl
      · exact hafter.kept j f hj (Or.inl hgt)
    | unrecorded hpre hdone hrecord hwritten hkept =>
      by_cases hw : f.Writes
      · rw [hwritten f hf hw, (hrev hpre).2 hdone hrecord f hf hw]
      · exact hkept f hf hw

/-! ## Sample plans -/

/-- `sha256_hex` on the two texts of the sample. -/
def sampleSha (bytes : Bytes) : String :=
  if bytes = asBytes "\x7b\x7d" then
    "44136fa355b3678a1146ad16f7e8649e94fb4fc21fe77e8310c060f61caaff8a"
  else "2430f1a2ad2982d0067885488a4c89e21ad1d7c83b115ba8f1b20acc88dfaea8"

/-- A file of the sample directory that gets the text with a version. -/
def sampleFile (name : String) (isNewFile : Bool) : PlanFileSnapshot where
  canonicalPath := ⟨"/home/user/.cursor", name⟩
  displayPath := "~/.cursor/" ++ name
  baselineSha256 := sampleSha (asBytes "\x7b\x7d")
  baselineText := "\x7b\x7d"
  mergedText := "\x7b\"version\":1\x7d"
  isNewFile := isNewFile
  backupDisplayPath := ""

def samplePlan (files : List PlanFileSnapshot) : StoredPlan where
  planId := "plan-1"
  source := .cursor
  scope := .user
  operation := .install
  expiresAtMs := 300000
  files := files

/-- A disk where the named files of the sample directory are there. -/
def sampleDisk (names : List String) : Disk where
  files := fun path =>
    if path.dir = "/home/user/.cursor" ∧ path.name ∈ names then some (asBytes "\x7b\x7d") else none
  journal := ⟨[], []⟩
  persisted := ⟨[], []⟩

def sampleEnv (faults : Faults) : ApplyEnv where
  sha256Hex := sampleSha
  backupTimestamp := fun _ => "19700101T000000"
  windows := false
  backupUuid := fun i => String.ofList ('u' :: List.replicate i 'u')
  backupId := fun i => String.ofList ('b' :: List.replicate i 'b')
  journalId := "jrnl-1"
  faults := faults

/-- The error of an apply, and what it leaves at a path. -/
def failure (path : DiskPath) :
    EStateM.Result ConnectorError Disk ConnectorApplyResult → Option (ConnectorError × Option Bytes)
  | .ok .. => none
  | .error e d => some (e, d.files path)

/-- The lock of the second file is taken. -/
def contendedEnv : ApplyEnv :=
  sampleEnv { Faults.clear with
    lock := fun phase i => if phase = .apply ∧ i = 1 then some .lockContention else none }

/-- The journal cannot be written once the files are. -/
def fullDiskEnv : ApplyEnv :=
  sampleEnv { Faults.clear with
    io := fun phase _ op =>
      if phase = .record ∧ op = .journalTemp then some "No space left on device (os error 28)"
      else none }

/-- Two existing files. -/
def twoFiles : List PlanFileSnapshot :=
  [sampleFile "hooks.json" false, sampleFile "settings.json" false]

/-- A property of both places of the plan. -/
theorem twoFiles_place {P : ℕ → PlanFileSnapshot → Prop} (hzero : P 0 (sampleFile "hooks.json" false))
    (hone : P 1 (sampleFile "settings.json" false)) (i : ℕ) (f : PlanFileSnapshot)
    (hf : (samplePlan twoFiles).files[i]? = some f) : P i f := by
  rcases i with _ | _ | i
  · exact Option.some.inj hf ▸ hzero
  · exact Option.some.inj hf ▸ hone
  · cases hf

theorem of_failure {path : DiskPath} {r : EStateM.Result ConnectorError Disk ConnectorApplyResult}
    {e : ConnectorError} {b : Option Bytes} (h : failure path r = some (e, b)) :
    ∃ d, r = .error e d ∧ d.files path = b := by
  cases r with
  | ok => cases h
  | error e' d =>
    obtain ⟨rfl, rfl⟩ := Prod.mk.inj (Option.some.inj h)
    exact ⟨d, rfl, rfl⟩

theorem fresh_twoFiles :
    contendedEnv.Fresh (samplePlan twoFiles) 0 (sampleDisk ["hooks.json", "settings.json"]) := by
  refine ⟨fun bytes => ?_, twoFiles_place (by decide) (by decide),
    twoFiles_place (by decide) (by decide),
    twoFiles_place (by decide) (by decide), fun i j f g hf hg hpath => ?_,
    fun i j h => ?_, fun _ _ => rfl⟩
  · show sampleSha bytes ≠ ""
    unfold sampleSha
    split_ifs
    · decide
    · decide
  · by_contra hne
    have hdir : (contendedEnv.backupPath 0 0 (sampleFile "hooks.json" false).canonicalPath) ≠
        contendedEnv.backupPath 0 1 (sampleFile "settings.json" false).canonicalPath := by
      decide
    refine twoFiles_place (P := fun i f => i ≠ j → contendedEnv.backupPath 0 i f.canonicalPath ≠
      contendedEnv.backupPath 0 j g.canonicalPath) ?_ ?_ i f hf hne hpath
    · exact twoFiles_place (P := fun j g => 0 ≠ j → _ ≠ contendedEnv.backupPath 0 j g.canonicalPath)
        (fun h => absurd rfl h) (fun _ => hdir) j g hg
    · exact twoFiles_place (P := fun j g => 1 ≠ j → _ ≠ contendedEnv.backupPath 0 j g.canonicalPath)
        (fun _ => hdir.symm) (fun h => absurd rfl h) j g hg
  · have hlen : (contendedEnv.backupId i).toList.length = (contendedEnv.backupId j).toList.length :=
      congrArg (fun id => id.toList.length) h
    simpa [contendedEnv, sampleEnv] using hlen

theorem reversible_twoFiles : contendedEnv.Reversible (samplePlan twoFiles) 0
    (sampleDisk ["hooks.json", "settings.json"]) := by
  have hstops : contendedEnv.StopsAt (samplePlan twoFiles) 0
      (sampleDisk ["hooks.json", "settings.json"]) 1 (sampleFile "settings.json" false) := by
    refine ⟨rfl, ⟨by decide, by decide⟩, fun j g hj hg hstop => ?_⟩
    obtain rfl : j = 0 := by omega
    cases hg
    exact hstop.2 (by decide)
  intro _
  refine ⟨fun k f hstop => ?_, fun hdone => absurd hstops.2.1 (hdone 1 _ hstops.1)⟩
  obtain ⟨rfl, rfl⟩ := hstop.unique hstops
  refine ⟨by decide, fun j g hj hg _ => Or.inl ⟨?_, ?_, fun n f hn hk hf _ _ => ?_⟩⟩
  · obtain rfl : j = 0 := by omega
    cases hg
    decide
  · rfl
  · obtain rfl : n = 0 := by omega
    decide

/-- The second file of the plan is locked : the first is put back from its backup. -/
theorem apply_all_or_nothing_twoFiles :
    ∃ d, contendedEnv.applyPlan (samplePlan twoFiles) 0
        (sampleDisk ["hooks.json", "settings.json"]) = .error .partialApplyFailure d ∧
      ∀ f ∈ twoFiles, d.files f.canonicalPath =
        (sampleDisk ["hooks.json", "settings.json"]).files f.canonicalPath := by
  have hrun : failure (sampleFile "hooks.json" false).canonicalPath
      (contendedEnv.applyPlan (samplePlan twoFiles) 0
        (sampleDisk ["hooks.json", "settings.json"])) =
      some (.partialApplyFailure, some (asBytes "\x7b\x7d")) := by
    decide +kernel
  obtain ⟨d, hd, -⟩ := of_failure hrun
  exact ⟨d, hd, (apply_all_or_nothing contendedEnv (samplePlan twoFiles) 0
    (sampleDisk ["hooks.json", "settings.json"]) fresh_twoFiles (by decide)).2
      reversible_twoFiles _ d hd⟩

/-- The journal cannot be written after the only file has been, and a file that was created
before another one failed stays. -/
theorem apply_leaves_changes :
    (∃ d, fullDiskEnv.applyPlan (samplePlan [sampleFile "hooks.json" false]) 0
        (sampleDisk ["hooks.json"]) = .error (.internal
          "journal temp write failed: No space left on device (os error 28)") d ∧
      d.files (sampleFile "hooks.json" false).canonicalPath = some (asBytes "\x7b\"version\":1\x7d") ∧
      (sampleDisk ["hooks.json"]).files (sampleFile "hooks.json" false).canonicalPath =
        some (asBytes "\x7b\x7d")) ∧
    ∃ d, contendedEnv.applyPlan (samplePlan [sampleFile "new.json" true,
        sampleFile "hooks.json" false]) 0 (sampleDisk ["hooks.json"]) =
          .error .partialApplyFailure d ∧
      (sampleDisk ["hooks.json"]).files (sampleFile "new.json" true).canonicalPath = none ∧
      d.files (sampleFile "new.json" true).canonicalPath = some (asBytes "\x7b\"version\":1\x7d") := by
  have hunrecorded : failure (sampleFile "hooks.json" false).canonicalPath
      (fullDiskEnv.applyPlan (samplePlan [sampleFile "hooks.json" false]) 0
        (sampleDisk ["hooks.json"])) = some (.internal
          "journal temp write failed: No space left on device (os error 28)",
          some (asBytes "\x7b\"version\":1\x7d")) := by
    decide
  have hcreated : failure (sampleFile "new.json" true).canonicalPath
      (contendedEnv.applyPlan (samplePlan [sampleFile "new.json" true,
        sampleFile "hooks.json" false]) 0 (sampleDisk ["hooks.json"])) =
      some (.partialApplyFailure, some (asBytes "\x7b\"version\":1\x7d")) := by
    decide
  constructor
  · obtain ⟨d, hd, hfile⟩ := of_failure hunrecorded
    exact ⟨d, hd, hfile, by decide⟩
  · obtain ⟨d, hd, hfile⟩ := of_failure hcreated
    exact ⟨d, hd, by decide, hfile⟩

end ApplyEnv

end Connector

end LlmNotch
