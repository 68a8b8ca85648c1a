import LlmNotch.DiskPlans
import LlmNotch.PackValidation

/-!
# Installing a sound pack and playing it

An installed theme is read back by `loadInstalledTheme`, and its sounds are found by
`resolvePlaybackAsset`. Both ask first whether the id of the theme is one that can name a
directory, which installing it does not.

An installation makes the directory of the theme, and then writes file after file
(`installPlan`). When one of them cannot be written, what was written before stays, and the next
attempt finds a theme of that id installed. `install_all_or_nothing_iff` : a pack is installed as
a whole and can be played, or leaves the disk as it was, exactly if it is refused, or stops at the
first thing to be created, or finds nothing in its way and has an id that can be played.
-/

namespace LlmNotch

namespace SoundPack

open Files

/-! ## Playing -/

/-- The errors of a sound; one holds a path that is shown. -/
inductive PlaybackError where
  | sound (error : SoundError)
  | backend (detail : String)
  | invalidManifestAt (path : Path) (detail : String)
  deriving DecidableEq

inductive ResolvedAudio where
  | embedded (event : SoundEvent)
  | file (location : Location)
  deriving DecidableEq

section Playing

variable (process : Process) (platform : Platform)

/-- What a path leads to. -/
def walk (path : Path) (tree : Tree) : Except String Node :=
  match (process.steps platform path).dropLast.find? fun l => tree l ≠ some .dir with
  | some l =>
    if tree l = none then .error "No such file or directory (os error 2)"
    else .error "Not a directory (os error 20)"
  | none =>
    match tree (process.locate path) with
    | none => .error "No such file or directory (os error 2)"
    | some node => .ok node

/-- `fs::read`. -/
def readFile (path : Path) (tree : Tree) : Except String (List UInt8) := do
  match ← walk process platform path tree with
  | .dir => throw "Is a directory (os error 21)"
  | .file bytes => pure bytes

/-- `fs::canonicalize`. -/
def canonicalize (path : Path) (tree : Tree) : Except String Location := do
  let _ ← walk process platform path tree
  pure (process.locate path)

def loadInstalledTheme (reader : Reader) (themesRoot : Path) (themeId : String) (tree : Tree) :
    Except PlaybackError SoundTheme := do
  (validateThemeId themeId).mapError .sound
  if isReservedThemeId themeId then throw (.backend ("unknown sound theme " ++ themeId))
  else do
    let themeDir := themesRoot.join (.parse platform themeId)
    let manifestPath := themeDir.join (.parse platform themeManifestName)
    let bytes ← (readFile process platform manifestPath tree).mapError fun error =>
      .backend ("installed theme `" ++ themeId ++ "` is missing or unreadable: " ++ error)
    let theme ← (reader.theme bytes).mapError fun error => .invalidManifestAt manifestPath error
    if theme.id ≠ themeId then
      throw (.sound (.invalidManifest ("theme manifest id `" ++ theme.id ++
        "` does not match installed directory `" ++ themeId ++ "`")))
    else do
      theme.validate.mapError .sound
      pure theme

def resolveBuiltinAsset (path : String) : Except PlaybackError SoundEvent :=
  match RustText.stripPre "builtin/8-bit/".toList path.toList with
  | none => .error (.backend ("unsupported asset path " ++ path))
  | some fileName =>
    if fileName = "approval.wav".toList then .ok .approval
    else if fileName = "question.wav".toList then .ok .question
    else if fileName = "completed.wav".toList then .ok .completed
    else if fileName = "failed.wav".toList then .ok .failed
    else if fileName = "notification.wav".toList then .ok .notification
    else .error (.backend ("unknown built-in sound asset " ++ path))

/-- The length the file system reports; `dirLen` is that of directories. -/
def Node.len (dirLen : ℕ) : Node → ℕ
  | .dir => dirLen
  | .file bytes => bytes.length

def resolvePlaybackAsset (dirLen : Location → ℕ) (themesRoot : Path) (theme : SoundTheme)
    (asset : SoundAsset) (tree : Tree) : Except PlaybackError ResolvedAudio :=
  if "builtin/".toList.isPrefixOf asset.path.toList then
    (resolveBuiltinAsset asset.path).map .embedded
  else do
    (validateThemeId theme.id).mapError .sound
    let themeDir := themesRoot.join (.parse platform theme.id)
    let assetPath := themeDir.join (.parse platform asset.path)
    let canonicalTheme ← (canonicalize process platform themeDir tree).mapError fun error =>
      .backend ("installed theme `" ++ theme.id ++ "` is missing or unreadable: " ++ error)
    let canonicalAsset ← (canonicalize process platform assetPath tree).mapError fun error =>
      .backend ("sound asset " ++ asset.path ++ " is missing or unreadable: " ++ error)
    if !canonicalTheme.isPrefixOf canonicalAsset then throw (.sound (.unsafePath asset.path))
    else
      match tree canonicalAsset with
      | none => throw (.backend ("could not read metadata for " ++ asset.path ++
          ": No such file or directory (os error 2)"))
      | some node =>
        if Node.len (dirLen canonicalAsset) node ≠ asset.sizeBytes then
          throw (.sound (.invalidAssetSize asset.path asset.sizeBytes))
        else pure (.file canonicalAsset)

end Playing

/-! ## Packs that are valid -/

theorem readArchiveEntries_invariant {P : PackEntries × ℕ → Prop} {pack : PackBytes}
    {entries : PackEntries} (hstart : P ([], 0))
    (hstep : ∀ seen entry next, P seen → addEntry seen entry = .ok next → P next)
    (h : readArchiveEntries pack = .ok entries) : ∃ total, P (entries, total) := by
  have hall : ∀ (archive : List (Except String ZipFile)) (start result : PackEntries × ℕ),
      P start → archive.foldlM addEntry start = .ok result → P result := by
    intro archive
    induction archive with
    | nil => exact fun start result hstart hfold => Except.ok.inj hfold ▸ hstart
    | cons entry archive ih =>
      intro start result hstart hfold
      rw [List.foldlM_cons] at hfold
      obtain ⟨next, hnext, hfold⟩ := bind_eq_ok.1 hfold
      exact ih next result (hstep start entry next hstart hnext) hfold
  unfold readArchiveEntries at h
  obtain ⟨archive, -, h⟩ := bind_eq_ok.1 h
  split at h
  · cases h
  obtain ⟨⟨result, total⟩, hfold, h⟩ := bind_eq_ok.1 h
  cases h
  exact ⟨total, hall archive _ _ hstart hfold⟩

/-- No two entries have the same name. -/
theorem nodup_entries {pack : PackBytes} {entries : PackEntries}
    (h : readArchiveEntries pack = .ok entries) : (entries.map Prod.fst).Nodup := by
  have hall := readArchiveEntries_invariant
    (P := fun seen => (seen.1.map Prod.fst).Nodup) (by simp) ?_ h
  · exact hall.choose_spec
  · intro seen entry next hseen hnext
    unfold addEntry at hnext
    obtain ⟨file, -, hnext⟩ := bind_eq_ok.1 hnext
    obtain ⟨normalized, -, hnext⟩ := bind_eq_ok.1 hnext
    split at hnext
    · exact Except.ok.inj hnext ▸ hseen
    · obtain ⟨bytes, -, hnext⟩ := bind_eq_ok.1 hnext
      repeat (split at hnext; · cases hnext)
      rename_i hnew
      rw [← Except.ok.inj hnext]
      exact nodup_keys_concat bytes hseen (by simpa using hnew)

/-- What is known of a pack that passes validation. -/
structure Validated (reader : Reader) (entries : PackEntries) (v : SoundPackValidation) : Prop where
  manifest : ∃ bytes, entries.lookup themeManifestName = some bytes ∧
    reader.theme bytes = .ok v.theme
  valid : v.theme.validate = .ok ()
  unreserved : ¬ isReservedThemeId v.theme.id = true
  assets : ∀ asset ∈ v.theme.assets, ¬ "builtin/".toList <+: asset.path.toList ∧
    ∃ bytes, entries.lookup asset.path = some bytes ∧ bytes.length = asset.sizeBytes

theorem verifyAsset_lookup {entries : PackEntries} {asset : SoundAsset}
    (h : verifyAsset entries asset = .ok ()) : ¬ "builtin/".toList <+: asset.path.toList ∧
      ∃ bytes, entries.lookup asset.path = some bytes ∧ bytes.length = asset.sizeBytes := by
  unfold verifyAsset at h
  split at h
  · cases h
  rename_i hown
  rw [List.isPrefixOf_iff_prefix] at hown
  cases hlookup : entries.lookup asset.path with
  | none =>
    rw [hlookup] at h
    cases h
  | some bytes =>
    simp only [hlookup] at h
    split at h
    · cases h
    rename_i hsize
    exact ⟨hown, bytes, rfl, not_not.1 hsize⟩

theorem validated_of_ok {reader : Reader} {pack : PackBytes} {entries : PackEntries}
    {v : SoundPackValidation} (hentries : readArchiveEntries pack = .ok entries)
    (h : validatePackBytes reader pack = .ok v) : Validated reader entries v := by
  unfold validatePackBytes at h
  split at h
  · cases h
  obtain ⟨entries', hentries', h⟩ := bind_eq_ok.1 h
  obtain rfl := Except.ok.inj (hentries.symm.trans hentries')
  cases hlookup : entries.lookup themeManifestName with
  | none =>
    rw [hlookup] at h
    cases h
  | some bytes =>
    simp only [hlookup] at h
    obtain ⟨theme, htheme, h⟩ := bind_eq_ok.1 h
    obtain ⟨⟨⟩, hvalid, h⟩ := bind_eq_ok.1 h
    obtain ⟨⟨⟩, hreserved, h⟩ := bind_eq_ok.1 h
    obtain ⟨⟨⟩, hcontents, h⟩ := bind_eq_ok.1 h
    cases h
    refine ⟨⟨bytes, hlookup, (parseThemeManifest_eq_ok reader).1 htheme⟩,
      mapError_eq_ok.1 hvalid, rejectReservedTheme_eq_ok.1 hreserved, ?_⟩
    have hassets : verifyThemeAssetsPresent theme entries = .ok () := by
      unfold verifyContents at hcontents
      split at hcontents
      · cases hcontents
      obtain ⟨integrity, -, hcontents⟩ := bind_eq_ok.1 hcontents
      split at hcontents
      · cases hcontents
      obtain ⟨⟨⟩, -, hassets⟩ := bind_eq_ok.1 hcontents
      exact hassets
    have hall := (forM_eq_ok (f := verifyAsset entries) (p := fun asset =>
      verifyAsset entries asset = .ok ()) fun _ => Iff.rfl).1 hassets
    exact fun asset hasset => verifyAsset_lookup (hall asset hasset)

/-! ## Where the files go -/

/-- A name of an entry is the path of its parts. -/
theorem parse_normalized (platform : Platform) {raw name : String}
    (h : normalizeArchivePath raw = .ok name) :
    Path.parse platform name = ⟨none, false, (name.toList.splitOn '/').map String.ofList⟩ ∧
      Plain ((name.toList.splitOn '/').map String.ofList) := by
  obtain ⟨hsafe, rfl⟩ := normalizeArchivePath_eq_ok.1 h
  set text := forwardSlashes raw with htext
  have hback : '\\' ∉ text := by
    rw [htext, forwardSlashes]
    simp only [List.mem_map, not_exists, not_and]
    intro c _
    split
    · decide
    · rename_i hc
      exact hc
  have hname : (normalizedName raw).toList = text := String.toList_ofList
  have hparts : components platform text = (text.splitOn '/').map String.ofList := by
    rw [components, splitOnP_isSep platform hback]
    refine congrArg (List.map String.ofList) (List.filter_eq_self.2 fun part hpart => ?_)
    obtain ⟨hne, hdot, -⟩ := hsafe.names part hpart
    simpa using ⟨hne, hdot⟩
  rw [hname]
  refine ⟨?_, fun hmem => ?_⟩
  · simp only [Path.parse, hname, volumeOf_relative platform hback hsafe.relative.2 hsafe.noDrive,
      hparts]
  · obtain ⟨part, hpart, hup⟩ := List.mem_map.1 hmem
    exact (hsafe.names part hpart).2.2 (String.ofList_injective (hup.trans (by decide)))

section Paths

variable (process : Process) (platform : Platform)

/-- A location starts with a volume. -/
def Based (process : Process) : Prop :=
  process.current ≠ [] ∧ ∀ volume, process.currentOf volume ≠ []

variable {process}

theorem locate_ne_nil (h : Based process) (path : Path) : process.locate path ≠ [] := by
  have hstart : process.start path ≠ [] := by
    unfold Process.start
    split
    · simp
    · exact h.2 _
    · simpa [List.take_eq_nil_iff] using h.1
    · exact h.1
  have hall : ∀ (parts : List String) (start : Location), start ≠ [] →
      parts.foldl descend start ≠ [] := by
    intro parts
    induction parts with
    | nil => exact fun start hne => hne
    | cons part parts ih =>
      refine fun start hne => ih _ ?_
      unfold descend
      split
      · unfold up
        split
        · exact hne
        · rename_i hlong
          intro hnil
          have hlength := congrArg List.length hnil
          rw [List.length_dropLast, List.length_nil] at hlength
          omega
      · simp
  exact hall path.parts _ hstart

theorem locate_mem_steps (h : Based process) (path : Path) :
    process.locate path ∈ process.steps platform path := by
  cases platform with
  | unix => exact List.mem_of_getLast? List.getLast?_scanl
  | windows => exact List.mem_filter.2 ⟨by simp, by simpa using locate_ne_nil h path⟩

theorem steps_concat (path : Path) {name : String} (h : name ≠ "..") :
    process.steps platform { path with parts := path.parts ++ [name] } =
      process.steps platform path ++ [process.locate path ++ [name]] := by
  cases platform with
  | unix => exact steps_child process path h
  | windows =>
    show List.filter _ (process.locate { path with parts := path.parts ++ [name] }).inits = _
    rw [locate_child process path h, List.inits_append]
    simp [Process.steps]

/-- What is walked through to a file below a directory, the file aside, is what is walked through
to its parent. -/
theorem dropLast_steps (target : Path) {parts : List String} (hplain : Plain parts)
    (hne : parts ≠ []) :
    (process.steps platform (target.join ⟨none, false, parts⟩)).dropLast =
      process.steps platform (target.join ⟨none, false, parts⟩).parent := by
  rcases List.eq_nil_or_concat' parts with rfl | ⟨init, last, rfl⟩
  · exact absurd rfl hne
  have hlast : last ≠ ".." := by
    rintro rfl
    exact hplain (by simp)
  have hparts : target.join ⟨none, false, init ++ [last]⟩ =
      { target.join ⟨none, false, init⟩ with
        parts := (target.join ⟨none, false, init⟩).parts ++ [last] } := by
    rw [join_relative, join_relative, List.append_assoc]
  rw [hparts, steps_concat platform _ hlast, List.dropLast_concat, Path.parent,
    List.dropLast_concat]

end Paths

/-! ## The plan of an installation -/

section Plan

variable (process : Process) (platform : Platform)

/-- What is made for one entry : the directories its file is in, and the file. -/
def entryPlan (target : Path) (entry : String × List UInt8) : List Op :=
  let destination := target.join (.parse platform entry.1)
  (process.steps platform destination.parent).map .dir ++
    [.file (process.locate destination) entry.2]

def installPlan (target : Path) (files : PackEntries) : List Op :=
  (process.steps platform target).map .dir ++ files.flatMap (entryPlan process platform target)

/-- What an installation returns. -/
def installedValidation (v : SoundPackValidation) : SoundPackValidation :=
  { theme := v.theme
    trusted := v.trusted
    installed := true
    message := "installed sound theme `" ++ v.theme.id ++ "`" }

variable {process platform} {target : Path}

theorem Runs.viaDisk {α : Type} {wrap : String → SoundPackError} {m : DiskM α} {ops : List Op}
    (h : Runs m ops) : Runs (viaDisk wrap m) ops :=
  fun d => wp_viaDisk.2 (h d)

theorem runs_installEntry (entry : String × List UInt8) :
    Runs (installEntry process platform target entry) (entryPlan process platform target entry) :=
  (Runs.viaDisk (runs_createDirAll process platform _)).bind fun _ =>
    Runs.viaDisk (runs_writeFile _ entry.2)

theorem mem_of_lookup {entries : PackEntries} {path : String} {bytes : List UInt8}
    (h : entries.lookup path = some bytes) : (path, bytes) ∈ entries := by
  obtain ⟨before, after, rfl, -⟩ := List.lookup_eq_some_iff.1 h
  simp

theorem mem_installedFiles {entries : PackEntries} {entry : String × List UInt8} :
    entry ∈ installedFiles entries ↔ entry ∈ entries ∧ entry.1 ≠ integrityManifestName := by
  rw [installedFiles, List.mem_filter, PackEntries.sorted,
    (List.perm_insertionSort _ _).mem_iff, decide_eq_true_eq]

variable {d : Disk} {v : SoundPackValidation} {entries : PackEntries} {themesRoot : Path}
  {reserved : List String} {reader : Reader}

/-- What is left of an installation that is not refused. -/
theorem wp_install_allowed (hvalid : Validated reader entries v)
    (htarget : themesRoot.join (.parse platform v.theme.id) = target)
    (hallowed : ¬ Refused process platform d.tree themesRoot reserved v.theme.id)
    {Q : SoundPackValidation → Disk → Prop} {E : SoundPackError → Disk → Prop} :
    wp (installValidatedPack process platform v entries themesRoot reserved) d Q E ↔
      wp (createDirAll process platform target) d
        (fun _ d' => wp ((installedFiles entries).forM (installEntry process platform target)) d'
          (fun _ => Q (installedValidation v)) E)
        fun text => E (.installFailed ("could not create theme directory: " ++ text)) := by
  obtain ⟨hfree, hnew⟩ := not_or.1 hallowed
  obtain ⟨bytes, hmanifest, -⟩ := hvalid.manifest
  have hname : themeManifestName ≠ integrityManifestName := by decide
  have hwritten : ((installedFiles entries).map Prod.fst).contains themeManifestName = true := by
    refine List.contains_iff_mem.2 (List.mem_map.2 ⟨(themeManifestName, bytes), ?_, rfl⟩)
    exact mem_installedFiles.2 ⟨mem_of_lookup hmanifest, hname⟩
  have hreserved : rejectReservedTheme v.theme = .ok () :=
    rejectReservedTheme_eq_ok.2 hvalid.unreserved
  rw [htarget] at hnew
  unfold installValidatedPack
  simp only [wp_bind, wp_get, wp_viaDisk, hreserved, ofResult, failIf, if_neg hfree, htarget,
    if_neg hnew, if_pos hwritten, wp_pure]
  rfl

end Plan

section Outcomes

variable {process : Process} {platform : Platform} {target : Path} {d : Disk}
  {v : SoundPackValidation} {entries : PackEntries} {themesRoot : Path} {reserved : List String}
  {reader : Reader}

/-- The installation carries out its plan or fails. -/
theorem wp_install_plan (hvalid : Validated reader entries v)
    (htarget : themesRoot.join (.parse platform v.theme.id) = target)
    (hallowed : ¬ Refused process platform d.tree themesRoot reserved v.theme.id) :
    wp (installValidatedPack process platform v entries themesRoot reserved) d
      (fun v' d' => v' = installedValidation v ∧
        Done (installPlan process platform target (installedFiles entries)) d d')
      fun _ _ => ¬ Possible (installPlan process platform target (installedFiles entries)) d := by
  rw [wp_install_allowed hvalid htarget hallowed]
  refine wp_mono (runs_createDirAll process platform target d) (fun _ d₁ h₁ => ?_)
    fun _ _ h hpossible => h hpossible.of_append
  have hfiles := runs_forM (installedFiles entries) (f := installEntry process platform target)
    fun entry _ => runs_installEntry entry
  exact wp_mono (hfiles d₁) (fun _ _ h₂ => ⟨rfl, h₁.append h₂⟩)
    fun _ _ h hpossible => h ((possible_append h₁).1 hpossible)

/-- The first location on the way to the target that is no directory cannot be made one. -/
def Blocked (process : Process) (platform : Platform) (d : Disk) (target : Path) : Prop :=
  ∃ l, (process.steps platform target).find? (fun l => d.tree l ≠ some .dir) = some l ∧ d.Stops l

theorem wp_install_blocked (hvalid : Validated reader entries v)
    (htarget : themesRoot.join (.parse platform v.theme.id) = target)
    (hallowed : ¬ Refused process platform d.tree themesRoot reserved v.theme.id)
    (hblocked : Blocked process platform d target) :
    wp (installValidatedPack process platform v entries themesRoot reserved) d
      (fun _ _ => False) fun _ d' => d'.tree = d.tree := by
  obtain ⟨l, hfind, hstops⟩ := hblocked
  rw [wp_install_allowed hvalid htarget hallowed]
  exact wp_mono (wp_ensureDirs_stops hfind hstops) (fun _ _ h => h.elim) fun _ _ h => h

theorem keeps_dir_installEntry (l : Location) (entry : String × List UInt8) :
    Keeps (fun d => d.tree l = some .dir) (installEntry process platform target entry) := by
  refine keeps_bind (fun d h => ?_) fun _ d h => ?_
  · exact wp_viaDisk.2 (keeps_dir_createDirAll l process platform _ d h)
  · exact wp_viaDisk.2 (keeps_dir_writeFile l _ _ d h)

/-- An installation that is neither refused nor blocked leaves a directory that was not there,
even if it fails. -/
theorem wp_install_unblocked (hbased : Based process) (hvalid : Validated reader entries v)
    (htarget : themesRoot.join (.parse platform v.theme.id) = target)
    (hallowed : ¬ Refused process platform d.tree themesRoot reserved v.theme.id)
    (hblocked : ¬ Blocked process platform d target) :
    ∃ l, d.tree l = none ∧
      wp (installValidatedPack process platform v entries themesRoot reserved) d
        (fun _ d' => d'.tree l = some .dir) fun _ d' => d'.tree l = some .dir := by
  cases hfind : (process.steps platform target).find? fun l => d.tree l ≠ some .dir with
  | none =>
    have hall : ∀ l ∈ process.steps platform target, d.tree l = some .dir := by
      simpa using hfind
    refine absurd (.inr ?_) hallowed
    rw [htarget, pathExists, Bool.and_eq_true, List.all_eq_true]
    refine ⟨fun l hl => decide_eq_true (hall l (List.mem_of_mem_dropLast hl)), ?_⟩
    rw [hall _ (locate_mem_steps platform hbased target)]
    rfl
  | some l =>
    obtain ⟨hnone, hgoes⟩ := wp_ensureDirs_goes hfind fun hstops => hblocked ⟨l, hfind, hstops⟩
    refine ⟨l, hnone, ?_⟩
    rw [wp_install_allowed hvalid htarget hallowed]
    refine wp_mono hgoes (fun _ d₁ h₁ => ?_) fun _ _ h => h
    exact keeps_forM (fun entry _ => keeps_dir_installEntry l entry) d₁ h₁

end Outcomes

/-! ## Playing what was installed -/

/-- The files are below the target. -/
structure Holding (process : Process) (platform : Platform) (target : Path) (files : PackEntries)
    (tree : Tree) : Prop where
  steps : ∀ l ∈ process.steps platform target, tree l = some .dir
  parents : ∀ entry ∈ files,
    ∀ l ∈ process.steps platform (target.join (.parse platform entry.1)).parent,
      tree l = some .dir
  files : ∀ entry ∈ files,
    tree (process.locate (target.join (.parse platform entry.1))) = some (.file entry.2)

section Reading

variable {process : Process} {platform : Platform} {target : Path} {tree : Tree}
  {entries : PackEntries} {pack : PackBytes} {v : SoundPackValidation} {reader : Reader}
  {themesRoot : Path}

/-- Entries with the same location have the same name. -/
theorem name_of_locate {raw raw' name name' : String} (h : normalizeArchivePath raw = .ok name)
    (h' : normalizeArchivePath raw' = .ok name')
    (hsame : process.locate (target.join (.parse platform name)) =
      process.locate (target.join (.parse platform name'))) : name = name' := by
  obtain ⟨hparse, hplain⟩ := parse_normalized platform h
  obtain ⟨hparse', hplain'⟩ := parse_normalized platform h'
  rw [hparse, hparse', locate_join hplain, locate_join hplain', List.append_cancel_left_eq] at hsame
  have hparts : name.toList.splitOn '/' = name'.toList.splitOn '/' :=
    List.map_injective_iff.2 (fun _ _ h => String.ofList_injective h) hsame
  have hlists : name.toList = name'.toList := by
    have hback : ['/'].intercalate (name.toList.splitOn '/') = name.toList :=
      List.intercalate_splitOn '/'
    rw [← hback, hparts, List.intercalate_splitOn]
  exact String.toList_injective hlists

variable {files : PackEntries}

theorem mem_installPlan {op : Op} :
    op ∈ installPlan process platform target files ↔
      (∃ l ∈ process.steps platform target, op = .dir l) ∨ ∃ entry ∈ files,
        (∃ l ∈ process.steps platform (target.join (.parse platform entry.1)).parent,
          op = .dir l) ∨
        op = .file (process.locate (target.join (.parse platform entry.1))) entry.2 := by
  simp only [installPlan, entryPlan, List.mem_append, List.mem_map, List.mem_flatMap,
    List.mem_singleton, eq_comm]

/-- After the plan is carried out, the files are there. -/
theorem holding_of_passes (hentries : readArchiveEntries pack = .ok entries)
    (h : Passes tree (installPlan process platform target (installedFiles entries))) :
    Holding process platform target (installedFiles entries)
      (applyAll tree (installPlan process platform target (installedFiles entries))) := by
  refine ⟨fun l hl => applyAll_dir h (.inl (mem_installPlan.2 (.inl ⟨l, hl, rfl⟩))),
    fun entry hentry l hl => applyAll_dir h
      (.inl (mem_installPlan.2 (.inr ⟨entry, hentry, .inl ⟨l, hl, rfl⟩⟩))),
    fun entry hentry => applyAll_file h
      (.inl (mem_installPlan.2 (.inr ⟨entry, hentry, .inr rfl⟩))) fun bytes hbytes => ?_⟩
  obtain ⟨hentry, -⟩ := mem_installedFiles.1 hentry
  rcases mem_installPlan.1 hbytes with ⟨l, -, hop⟩ | ⟨entry', hentry', ⟨l, -, hop⟩ | hop⟩
  · cases hop
  · cases hop
  · injection hop with hlocation hbytes
    obtain ⟨hentry', -⟩ := mem_installedFiles.1 hentry'
    obtain ⟨raw, hraw⟩ := readable_entries hentries entry hentry
    obtain ⟨raw', hraw'⟩ := readable_entries hentries entry' hentry'
    have hname := name_of_locate hraw hraw' hlocation
    have hlookup := (lookup_eq_some_of_nodup (nodup_entries hentries)).2 hentry
    have hlookup' := (lookup_eq_some_of_nodup (nodup_entries hentries)).2 hentry'
    rw [hname, hlookup'] at hlookup
    exact hbytes.trans (Option.some.inj hlookup)

theorem canonicalize_of_walk {path : Path} {node : Node}
    (h : walk process platform path tree = .ok node) :
    canonicalize process platform path tree = .ok (process.locate path) :=
  bind_eq_ok.2 ⟨node, h, rfl⟩

theorem walk_target (hbased : Based process) (h : Holding process platform target files tree) :
    walk process platform target tree = .ok .dir := by
  have hnone : ((process.steps platform target).dropLast.find? fun l => tree l ≠ some .dir) =
      none :=
    List.find?_eq_none.2 fun l hl => by simpa using h.steps l (List.mem_of_mem_dropLast hl)
  unfold walk
  rw [hnone]
  dsimp only
  rw [h.steps _ (locate_mem_steps platform hbased target)]

theorem walk_file (h : Holding process platform target files tree) {entry : String × List UInt8}
    (hentry : entry ∈ files) {raw : String} (hraw : normalizeArchivePath raw = .ok entry.1) :
    walk process platform (target.join (.parse platform entry.1)) tree =
      .ok (.file entry.2) := by
  have hsteps : (process.steps platform (target.join (.parse platform entry.1))).dropLast =
      process.steps platform (target.join (.parse platform entry.1)).parent := by
    obtain ⟨hparse, hplain⟩ := parse_normalized platform hraw
    rw [hparse]
    exact dropLast_steps platform target hplain (by simp)
  have hnone : ((process.steps platform (target.join (.parse platform entry.1))).dropLast.find?
      fun l => tree l ≠ some .dir) = none := by
    rw [hsteps]
    exact List.find?_eq_none.2 fun l hl => by simpa using h.parents entry hentry l hl
  unfold walk
  rw [hnone]
  dsimp only
  rw [h.files entry hentry]

theorem loadInstalledTheme_installed (hentries : readArchiveEntries pack = .ok entries)
    (hvalid : Validated reader entries v) (hid : validateThemeId v.theme.id = .ok ())
    (h : Holding process platform (themesRoot.join (.parse platform v.theme.id))
      (installedFiles entries) tree) :
    loadInstalledTheme process platform reader themesRoot v.theme.id tree = .ok v.theme := by
  obtain ⟨bytes, hlookup, htheme⟩ := hvalid.manifest
  have hname : themeManifestName ≠ integrityManifestName := by decide
  have hentry := mem_installedFiles.2 ⟨mem_of_lookup hlookup, hname⟩
  obtain ⟨raw, hraw⟩ := readable_entries hentries _ (mem_of_lookup hlookup)
  have hread : readFile process platform ((themesRoot.join (.parse platform v.theme.id)).join
      (.parse platform themeManifestName)) tree = .ok bytes := by
    unfold readFile
    rw [walk_file h hentry hraw]
    rfl
  unfold loadInstalledTheme
  refine bind_eq_ok.2 ⟨(), mapError_eq_ok.2 hid, ?_⟩
  rw [if_neg hvalid.unreserved]
  refine bind_eq_ok.2 ⟨bytes, mapError_eq_ok.2 hread,
    bind_eq_ok.2 ⟨v.theme, mapError_eq_ok.2 htheme, ?_⟩⟩
  rw [if_neg (not_not.2 rfl)]
  exact bind_eq_ok.2 ⟨(), mapError_eq_ok.2 hvalid.valid, rfl⟩

theorem resolvePlaybackAsset_installed (hbased : Based process) (dirLen : Location → ℕ)
    (hentries : readArchiveEntries pack = .ok entries) (hvalid : Validated reader entries v)
    (hid : validateThemeId v.theme.id = .ok ())
    (h : Holding process platform (themesRoot.join (.parse platform v.theme.id))
      (installedFiles entries) tree) {asset : SoundAsset} (hasset : asset ∈ v.theme.assets) :
    ∃ l bytes, resolvePlaybackAsset process platform dirLen themesRoot v.theme asset tree =
        .ok (.file l) ∧ tree l = some (.file bytes) ∧ entries.lookup asset.path = some bytes := by
  obtain ⟨hown, bytes, hlookup, hsize⟩ := hvalid.assets asset hasset
  obtain ⟨raw, hraw⟩ := readable_entries hentries _ (mem_of_lookup hlookup)
  have hname : asset.path ≠ integrityManifestName := by
    intro hname
    have hasset' := (validate_eq_ok.1 hvalid.valid).assets asset hasset
    have hpath := validateAssetPath_eq_ok.2 ⟨hasset'.safe, hasset'.printable, hasset'.sound⟩
    have hnot : validateAssetPath integrityManifestName ≠ .ok () := by decide
    exact hnot (hname ▸ hpath)
  have hentry := mem_installedFiles.2 ⟨mem_of_lookup hlookup, hname⟩
  have hfile := h.files _ hentry
  have hwithin : process.locate (themesRoot.join (.parse platform v.theme.id)) <+:
      process.locate ((themesRoot.join (.parse platform v.theme.id)).join
        (.parse platform asset.path)) := by
    obtain ⟨hparse, hplain⟩ := parse_normalized platform hraw
    rw [hparse, locate_join hplain]
    exact List.prefix_append _ _
  have htheme := canonicalize_of_walk (walk_target hbased h)
  have hcanonical := canonicalize_of_walk (walk_file h hentry hraw)
  refine ⟨_, bytes, ?_, hfile, hlookup⟩
  rw [← List.isPrefixOf_iff_prefix] at hown hwithin
  unfold resolvePlaybackAsset
  rw [if_neg hown]
  refine bind_eq_ok.2 ⟨(), mapError_eq_ok.2 hid, bind_eq_ok.2 ⟨_, mapError_eq_ok.2 htheme,
    bind_eq_ok.2 ⟨_, mapError_eq_ok.2 hcanonical, ?_⟩⟩⟩
  rw [hwithin, hfile]
  exact if_neg (not_not.2 hsize)

end Reading

/-! ## All or nothing -/

/-- An error leaves the disk as it was. -/
def AllOrNothing (call : InstallM SoundPackValidation) (d : Disk) : Prop :=
  ∀ e d', call d = .error e d' → d'.tree = d.tree

section Main

variable (process : Process) (platform : Platform) (reader : Reader) (dirLen : Location → ℕ)
  (pack : PackBytes) (themesRoot : Path)

/-- An installed theme is loaded as it is, and its sounds are files with the bytes that the
archive has for them. -/
def Usable (call : InstallM SoundPackValidation) (d : Disk) : Prop :=
  ∀ v d', call d = .ok v d' →
    loadInstalledTheme process platform reader themesRoot v.theme.id d'.tree = .ok v.theme ∧
    ∀ asset ∈ v.theme.assets, ∃ l bytes entries,
      resolvePlaybackAsset process platform dirLen themesRoot v.theme asset d'.tree =
        .ok (.file l) ∧
      d'.tree l = some (.file bytes) ∧ readArchiveEntries pack = .ok entries ∧
      entries.lookup asset.path = some bytes

/-- No file is where a directory is needed or a directory where a file is, in the pack and on
the disk; no I/O operation fails; and the id of the theme is one that can be played. -/
structure Installs (d : Disk) (entries : PackEntries) (themeId : String) : Prop where
  compatible : Compatible d.tree (installPlan process platform
    (themesRoot.join (.parse platform themeId)) (installedFiles entries))
  noFault : NoFault
    ((missingDirs d.tree (installPlan process platform
      (themesRoot.join (.parse platform themeId)) (installedFiles entries))).card +
        2 * (filesOf (installPlan process platform
          (themesRoot.join (.parse platform themeId)) (installedFiles entries))).length) d.faults
  playable : validateThemeId themeId = .ok ()

variable {process platform reader dirLen pack themesRoot}
variable {d : Disk} {entries : PackEntries} {v : SoundPackValidation} {reserved : List String}

theorem possible_iff {ops : List Op} : Possible ops d ↔ Compatible d.tree ops ∧
    NoFault ((missingDirs d.tree ops).card + 2 * (filesOf ops).length) d.faults := by
  constructor
  · intro h
    have hcompatible := passes_iff_compatible.1 h.passes
    exact ⟨hcompatible, costs_eq hcompatible ▸ h.noFault⟩
  · rintro ⟨hcompatible, hfault⟩
    exact ⟨passes_iff_compatible.2 hcompatible, (costs_eq hcompatible).symm ▸ hfault⟩

theorem installs_iff {themeId : String} :
    Installs process platform themesRoot d entries themeId ↔
      Possible (installPlan process platform (themesRoot.join (.parse platform themeId))
        (installedFiles entries)) d ∧ validateThemeId themeId = .ok () :=
  ⟨fun h => ⟨possible_iff.2 ⟨h.compatible, h.noFault⟩, h.playable⟩,
    fun h => ⟨(possible_iff.1 h.1).1, (possible_iff.1 h.1).2, h.2⟩⟩

/-- A pack that is read and valid is installed. -/
theorem wp_call (hentries : readArchiveEntries pack = .ok entries)
    (hv : validatePackBytes reader pack = .ok v) {Q : SoundPackValidation → Disk → Prop}
    {E : SoundPackError → Disk → Prop} :
    wp (validateAndInstallPackBytes process platform reader pack themesRoot reserved) d Q E ↔
      wp (installValidatedPack process platform v entries themesRoot reserved) d Q E := by
  unfold validateAndInstallPackBytes
  simp only [wp_bind, hentries, hv, ofResult, wp_pure]

/-- Any other pack changes nothing. -/
theorem wp_call_invalid (h : ∀ entries v, readArchiveEntries pack = .ok entries →
      validatePackBytes reader pack ≠ .ok v) :
    wp (validateAndInstallPackBytes process platform reader pack themesRoot reserved) d
      (fun _ _ => False) fun _ d' => d' = d := by
  unfold validateAndInstallPackBytes
  simp only [wp_bind, wp_ofResult]
  exact ⟨fun entries hentries => ⟨fun v hv => absurd hv (h entries v hentries),
    fun _ _ => trivial⟩, fun _ _ => trivial⟩

theorem wp_install_refused (hentries : readArchiveEntries pack = .ok entries)
    (hv : validatePackBytes reader pack = .ok v)
    (hrefused : Refused process platform d.tree themesRoot reserved v.theme.id) :
    wp (installValidatedPack process platform v entries themesRoot reserved) d
      (fun _ _ => False) fun _ d' => d' = d :=
  wp_mono (wp_installValidatedPack (readable_entries hentries)
    (manifest_of_validatePackBytes hentries hv) rfl) (fun _ _ h => h.1 hrefused)
    fun _ _ h => h.2 hrefused

/-- A call that fails without an effect. -/
theorem all_or_nothing_of_unchanged {call : InstallM SoundPackValidation}
    (h : wp call d (fun _ _ => False) fun _ d' => d'.tree = d.tree) :
    AllOrNothing call d ∧ Usable process platform reader dirLen pack themesRoot call d := by
  refine ⟨fun e d' hrun => ?_, fun v d' hrun => (wp_ok h hrun).elim⟩
  have hsame := wp_error h hrun
  exact hsame

/-- What could be installed met the conditions. -/
theorem possible_of_ok {v' : SoundPackValidation} {d' : Disk}
    (hrun : validateAndInstallPackBytes process platform reader pack themesRoot reserved d =
      .ok v' d') (hentries : readArchiveEntries pack = .ok entries)
    (hv : validatePackBytes reader pack = .ok v) :
    Possible (installPlan process platform (themesRoot.join (.parse platform v.theme.id))
      (installedFiles entries)) d := by
  have hallowed : ¬ Refused process platform d.tree themesRoot reserved v.theme.id :=
    fun hrefused => wp_ok ((wp_call hentries hv).2 (wp_install_refused hentries hv hrefused)) hrun
  have hplan := wp_install_plan (validated_of_ok hentries hv) rfl hallowed
  exact (wp_ok ((wp_call hentries hv).2 hplan) hrun).2.possible

/-- The case of a valid pack. -/
theorem install_valid_iff (hbased : Based process) (dirLen : Location → ℕ)
    (hentries : readArchiveEntries pack = .ok entries)
    (hv : validatePackBytes reader pack = .ok v) :
    let call := validateAndInstallPackBytes process platform reader pack themesRoot reserved
    AllOrNothing call d ∧ Usable process platform reader dirLen pack themesRoot call d ↔
      Refused process platform d.tree themesRoot reserved v.theme.id ∨
        Blocked process platform d (themesRoot.join (.parse platform v.theme.id)) ∨
        Installs process platform themesRoot d entries v.theme.id := by
  intro call
  have hvalid := validated_of_ok hentries hv
  by_cases hrefused : Refused process platform d.tree themesRoot reserved v.theme.id
  · refine iff_of_true (all_or_nothing_of_unchanged ?_) (.inl hrefused)
    exact (wp_call hentries hv).2 (wp_mono (wp_install_refused hentries hv hrefused)
      (fun _ _ h => h) fun _ _ h => h ▸ rfl)
  by_cases hblocked : Blocked process platform d (themesRoot.join (.parse platform v.theme.id))
  · refine iff_of_true (all_or_nothing_of_unchanged ?_) (.inr (.inl hblocked))
    exact (wp_call hentries hv).2 (wp_install_blocked hvalid rfl hrefused hblocked)
  rw [or_iff_right hrefused, or_iff_right hblocked, installs_iff]
  have hplan := (wp_call hentries hv).2 (wp_install_plan hvalid rfl hrefused)
  constructor
  · rintro ⟨hall, husable⟩
    cases hrun : call d with
    | ok v' d' =>
      obtain ⟨rfl, hdone⟩ := wp_ok hplan hrun
      obtain ⟨hload, -⟩ := husable _ d' hrun
      unfold loadInstalledTheme at hload
      obtain ⟨⟨⟩, hid, -⟩ := bind_eq_ok.1 hload
      exact ⟨hdone.possible, mapError_eq_ok.1 hid⟩
    | error e d' =>
      -- what was made of the way to the theme is left
      obtain ⟨l, hnone, hleft⟩ := wp_install_unblocked hbased hvalid rfl hrefused hblocked
      have hthere := wp_error ((wp_call hentries hv).2 hleft) hrun
      rw [hall e d' hrun, hnone] at hthere
      cases hthere
  · rintro ⟨hpossible, hid⟩
    refine ⟨fun e d' hrun => absurd hpossible (wp_error hplan hrun), fun v' d' hrun => ?_⟩
    obtain ⟨rfl, hdone⟩ := wp_ok hplan hrun
    have hholding := holding_of_passes hentries hdone.possible.passes
    rw [← hdone.tree] at hholding
    have hload := loadInstalledTheme_installed hentries hvalid hid hholding
    refine ⟨hload, fun asset hasset => ?_⟩
    obtain ⟨l, bytes, hresolve, hfile, hlookup⟩ :=
      resolvePlaybackAsset_installed hbased dirLen hentries hvalid hid hholding hasset
    exact ⟨l, bytes, entries, hresolve, hfile, hentries, hlookup⟩

/-- A pack is installed as a whole and can be played, or nothing changes : exactly if it is not
valid, is refused, is stopped by the first directory it has to create, or can be installed. -/
theorem install_all_or_nothing_iff (hbased : Based process) (reader : Reader)
    (dirLen : Location → ℕ) (pack : PackBytes) (themesRoot : Path) (reserved : List String)
    (d : Disk) :
    let call := validateAndInstallPackBytes process platform reader pack themesRoot reserved
    AllOrNothing call d ∧ Usable process platform reader dirLen pack themesRoot call d ↔
      ∀ entries v, readArchiveEntries pack = .ok entries →
        validatePackBytes reader pack = .ok v →
          Refused process platform d.tree themesRoot reserved v.theme.id ∨
            Blocked process platform d (themesRoot.join (.parse platform v.theme.id)) ∨
            Installs process platform themesRoot d entries v.theme.id := by
  intro call
  by_cases hvalid : ∃ entries v, readArchiveEntries pack = .ok entries ∧
      validatePackBytes reader pack = .ok v
  · obtain ⟨entries, v, hentries, hv⟩ := hvalid
    refine (install_valid_iff hbased dirLen hentries hv).trans ⟨?_, ?_⟩
    · intro h entries' v' hentries' hv'
      obtain rfl := Except.ok.inj (hentries.symm.trans hentries')
      obtain rfl := Except.ok.inj (hv.symm.trans hv')
      exact h
    · exact fun h => h entries v hentries hv
  · refine iff_of_true (all_or_nothing_of_unchanged ?_)
      fun entries v hentries hv => absurd ⟨entries, v, hentries, hv⟩ hvalid
    have hinvalid : ∀ entries v, readArchiveEntries pack = .ok entries →
        validatePackBytes reader pack ≠ .ok v :=
      fun entries v hentries hv => hvalid ⟨entries, v, hentries, hv⟩
    exact wp_mono (wp_call_invalid hinvalid) (fun _ _ h => h) fun _ _ h => h ▸ rfl

end Main

/-! ## A pack with a file and a directory of one name -/

theorem sampleProcess_based : Based sampleProcess :=
  ⟨by simp [sampleProcess], fun volume => by simp [sampleProcess]⟩

theorem install_all_or_nothing_sample :
    let call := sampleInstall 736 sampleName packHash
    AllOrNothing call ⟨sampleTree, [], []⟩ ∧
      Usable sampleProcess .unix (sampleReader sampleName packHash) (fun _ => 4096)
        (samplePack 736 sampleName packHash) sampleRoot call ⟨sampleTree, [], []⟩ := by
  obtain ⟨v', d', hrun, -⟩ := exists_ok_of_succeedsWith sample_run
  refine (install_all_or_nothing_iff sampleProcess_based _ (fun _ => 4096) _ _ reservedThemeIds
    ⟨sampleTree, [], []⟩).2 fun entries v hentries hv => .inr (.inr (installs_iff.2 ⟨?_, ?_⟩))
  · exact possible_of_ok hrun hentries hv
  · obtain rfl := Except.ok.inj (sample_validation.symm.trans hv)
    decide

/-- The integrity manifest of the sample, and a file `sounds`. -/
def conflictIntegrityJson : List UInt8 :=
  Utf8.encode ("\x7b\"schemaVersion\":1,\"algorithm\":\"sha256\",\"files\":" ++
    "\x7b\"sounds\":\"" ++ sampleSoundHash ++ "\",\"sounds/completed.wav\":\"" ++
    sampleSoundHash ++ "\",\"theme.json\":\"" ++ packHash ++ "\"\x7d\x7d")

def conflictEntries : PackEntries :=
  [("integrity.json", conflictIntegrityJson), ("sounds", sampleSound),
    ("sounds/completed.wav", sampleSound), ("theme.json", sampleThemeJson sampleName)]

/-- The sample with a file where the directory of its sound has to be. -/
def conflictPack : PackBytes :=
  ⟨904, .ok ([("integrity.json", conflictIntegrityJson), ("sounds", sampleSound),
    ("sounds/completed.wav", sampleSound), ("theme.json", sampleThemeJson sampleName)].map
      fun e => .ok ⟨e.1, false, .ok e.2⟩)⟩

def conflictReader : Reader :=
  { sampleReader sampleName packHash with
    integrity := fun bytes =>
      if bytes = conflictIntegrityJson then
        some ⟨1, "sha256", [("sounds", sampleSoundHash), ("sounds/completed.wav", sampleSoundHash),
          ("theme.json", packHash)], none⟩
      else none }

def conflictInstall : InstallM SoundPackValidation :=
  validateAndInstallPackBytes sampleProcess .unix conflictReader conflictPack sampleRoot
    reservedThemeIds

/-- The program fails on the disk, and leaves one that satisfies `p`. -/
def failsLeaving {α : Type} (m : InstallM α) (d : Disk) (p : Disk → Bool) : Bool :=
  match m d with
  | .ok _ _ => false
  | .error _ d' => p d'

theorem exists_error_of_failsLeaving {α : Type} {m : InstallM α} {d : Disk} {p : Disk → Bool}
    (h : failsLeaving m d p = true) : ∃ e d', m d = .error e d' ∧ p d' = true := by
  unfold failsLeaving at h
  cases hrun : m d with
  | ok v d' =>
    rw [hrun] at h
    cases h
  | error e d' =>
    rw [hrun] at h
    exact ⟨e, d', rfl, h⟩

theorem conflict_read : readArchiveEntries conflictPack = .ok conflictEntries := by
  have hlengths : (0 < conflictIntegrityJson.length ∧ conflictIntegrityJson.length ≤ 1000) ∧
      0 < (sampleThemeJson sampleName).length ∧ (sampleThemeJson sampleName).length ≤ 1000 := by
    decide +kernel
  obtain ⟨hintegrity, htheme⟩ := hlengths
  obtain ⟨hintegrityName, hsoundName, hthemeName⟩ := normalize_sampleNames
  have hlimits : 1000 ≤ maxAssetBytes ∧ 3000 ≤ maxPackBytes := by decide
  have hsound : sampleSound.length = 4 := rfl
  refine readArchiveEntries_stored (by simp [maxPackEntries]) (fun e he => ?_) ?_ (by simp)
  · simp only [List.mem_cons, List.not_mem_nil, or_false] at he
    rcases he with rfl | rfl | rfl | rfl
    · exact ⟨hintegrityName, by simp, List.ne_nil_of_length_pos hintegrity.1, by dsimp only; omega⟩
    · exact ⟨by decide, by simp, by simp [sampleSound], by dsimp only; omega⟩
    · exact ⟨hsoundName, by simp, by simp [sampleSound], by dsimp only; omega⟩
    · exact ⟨hthemeName, by simp, List.ne_nil_of_length_pos htheme.1, by dsimp only; omega⟩
  · simp only [List.map_cons, List.map_nil, List.sum_cons, List.sum_nil]
    omega

theorem conflict_validation : validatePackBytes conflictReader conflictPack =
    .ok ⟨sampleTheme sampleName, true, false, "sound pack passed validation"⟩ := by
  have hother : sampleThemeJson sampleName ≠ sampleSound := by decide
  have hmanifest : conflictEntries.lookup themeManifestName =
      some (sampleThemeJson sampleName) := by
    simp [conflictEntries, themeManifestName, List.lookup_cons]
  have hintegrity : conflictEntries.lookup integrityManifestName = some conflictIntegrityJson := by
    simp [conflictEntries, integrityManifestName]
  have hentry : conflictEntries.lookup "sounds" = some sampleSound ∧
      conflictEntries.lookup "sounds/completed.wav" = some sampleSound ∧
      conflictEntries.lookup "theme.json" = some (sampleThemeJson sampleName) := by
    simp [conflictEntries, List.lookup_cons]
  have hsoundHash : conflictReader.sha256Hex sampleSound = sampleSoundHash := by
    simp [conflictReader, sampleReader]
  have hthemeHash : conflictReader.sha256Hex (sampleThemeJson sampleName) = packHash := by
    simp [conflictReader, sampleReader, hother]
  have hdeclared : [("sounds", sampleSoundHash), ("sounds/completed.wav", sampleSoundHash),
      ("theme.json", packHash)].mapM (verifyFile conflictReader conflictEntries) =
        .ok ["sounds", "sounds/completed.wav", "theme.json"] := by
    rw [← hsoundHash, ← hthemeHash, List.mapM_cons, verifyFile_own (by decide) hentry.1,
      List.mapM_cons, verifyFile_own normalize_sampleNames.2.1 hentry.2.1, List.mapM_cons,
      verifyFile_own normalize_sampleNames.2.2 hentry.2.2]
    rfl
  have hparse : parseIntegrityManifest conflictReader conflictIntegrityJson =
      .ok ⟨1, "sha256", [("sounds", sampleSoundHash), ("sounds/completed.wav", sampleSoundHash),
        ("theme.json", packHash)], none⟩ := by
    simp [parseIntegrityManifest, conflictReader, packSchemaVersion]
  have hverify : verifyIntegrity conflictReader ⟨1, "sha256", _, none⟩ conflictEntries = _ :=
    verifyIntegrity_ok hdeclared (by simp [conflictEntries, integrityManifestName])
  have htheme : conflictReader.theme (sampleThemeJson sampleName) =
      .ok (sampleTheme sampleName) := by
    simp [conflictReader, sampleReader]
  refine validatePackBytes_ok (by decide) conflict_read hmanifest htheme
    (by decide) (by decide) (verifyContents_ok hintegrity hparse rfl hverify ?_)
  simp [verifyThemeAssetsPresent, sampleTheme, verifyAsset, hentry.2.1, sampleSound]

/-- The directory of the theme is left, and the corrected pack is refused. -/
theorem conflict_run :
    failsLeaving conflictInstall ⟨sampleTree, [], []⟩ (fun d =>
      d.tree ["/", "data", "themes", "community.test-pack"] = some .dir &&
        failsLeaving (sampleInstall 736 sampleName packHash) d fun _ => true) = true := by
  rw [conflictInstall, sampleInstall, validateAndInstallPackBytes, validateAndInstallPackBytes,
    conflict_read, conflict_validation, sampleName, read_sample, sample_validation]
  decide +kernel

/-- A pack that cannot be installed stays in part : its theme is taken to be installed. -/
theorem conflicting_pack_is_left :
    ¬ AllOrNothing conflictInstall ⟨sampleTree, [], []⟩ ∧
      ∃ e d', conflictInstall ⟨sampleTree, [], []⟩ = .error e d' ∧
        ∃ e' d'', sampleInstall 736 sampleName packHash d' = .error e' d'' := by
  obtain ⟨e, d', hrun, hleft⟩ := exists_error_of_failsLeaving conflict_run
  obtain ⟨hdir, hrefused⟩ := Bool.and_eq_true_iff.1 hleft
  obtain ⟨e', d'', hrun', -⟩ := exists_error_of_failsLeaving hrefused
  refine ⟨fun hall => ?_, e, d', hrun, e', d'', hrun'⟩
  have hnew : sampleTree ["/", "data", "themes", "community.test-pack"] = none := by decide
  have hsame : d'.tree = sampleTree := hall e d' hrun
  rw [← hsame, of_decide_eq_true hdir] at hnew
  cases hnew

end SoundPack

end LlmNotch
