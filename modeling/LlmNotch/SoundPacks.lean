import LlmNotch.FilePaths
import LlmNotch.Utf8
import Mathlib.Algebra.GroupWithZero.Nat
import Mathlib.Data.List.Sort

/-!
# Importing sound packs

A sound pack is an archive with a theme manifest, an integrity manifest and sound files.
`validatePackBytes` checks all of it but one thing : the theme id, which becomes the name of
the directory the pack is installed in, only has to be there and not to be reserved. Names of
entries cannot lead out of that directory (`plain_of_normalize`), the id can.

`pack_in_box` : an installation stays in a directory below the themes root that was not there
if walking from the root along the id does (`Lands`), and a successful one only then;
`lands_of_validateThemeId` : the check that is made before a theme is played is enough for it.
What the archive library, the JSON library and the hash function compute is a parameter.
-/

namespace LlmNotch

namespace SoundPack

open Files

/-! ## Manifests -/

def packSchemaVersion : ℕ := 1
def themeManifestName : String := "theme.json"
def integrityManifestName : String := "integrity.json"
def maxAssetBytes : ℕ := 2 * 1024 * 1024
def maxThemeBytes : ℕ := 8 * 1024 * 1024
def maxDurationMs : ℕ := 30000
def maxPackBytes : ℕ := maxThemeBytes + 256 * 1024
def maxPackEntries : ℕ := 64

inductive SoundEvent where
  | approval
  | question
  | completed
  | failed
  | notification
  deriving DecidableEq

structure SoundAsset where
  path : String
  sizeBytes : ℕ
  durationMs : ℕ
  deriving DecidableEq

structure SoundTheme where
  schemaVersion : ℕ
  id : String
  name : String
  author : String
  events : List (SoundEvent × SoundAsset)
  deriving DecidableEq

structure SoundPackSignature where
  algorithm : String
  publicKeyId : String
  value : String
  deriving DecidableEq

structure SoundPackIntegrity where
  schemaVersion : ℕ
  algorithm : String
  files : List (String × String)
  signature : Option SoundPackSignature
  deriving DecidableEq

structure SoundPackValidation where
  theme : SoundTheme
  trusted : Bool
  installed : Bool
  message : String
  deriving DecidableEq

inductive SoundError where
  | unsupportedSchema (version : ℕ)
  | invalidManifest (detail : String)
  | unsafePath (path : String)
  | unsupportedFormat (path : String)
  | duplicateAsset (path : String)
  | invalidAssetSize (path : String) (size : ℕ)
  | invalidDuration (path : String) (durationMs : ℕ)
  | themeTooLarge
  deriving DecidableEq

inductive SoundPackError where
  | packTooLarge
  | invalidArchive (detail : String)
  | missingIntegrity
  | unsupportedIntegrityAlgorithm (algorithm : String)
  | unsupportedSchema (version : ℕ)
  | unsafeEntryPath (path : String)
  | reservedThemeId (id : String)
  | reservedAssetPrefix (path : String)
  | hashMismatch (path expected actual : String)
  | missingPackFile (path : String)
  | unexpectedPackFile (path : String)
  | unsupportedSignature
  | invalidTheme (error : SoundError)
  | themeAlreadyInstalled (path : Path)
  | builtinThemeProtected (id : String)
  | installFailed (detail : String)
  deriving DecidableEq

/-! ## Text -/

def eqIgnoreAsciiCase (a b : String) : Bool :=
  RustText.asciiLowercase a = RustText.asciiLowercase b

/-- `char::is_control`. -/
def isControl (c : Char) : Bool :=
  c.toNat < 32 || (127 ≤ c.toNat && c.toNat < 160)

/-- `replace('\\', "/")`. -/
def forwardSlashes (text : String) : List Char :=
  text.toList.map fun c => if c = '\\' then '/' else c

/-- The second byte is a colon. -/
def hasDrivePrefix (text : List Char) : Bool :=
  (Utf8.encode (String.ofList text))[1]? = some 58

/-- An empty component, or one that leads nowhere new. -/
def isDotPart (part : List Char) : Bool :=
  part = [] || part = ['.'] || part = ['.', '.']

/-! ## Themes -/

def validateAssetPath (path : String) : Except SoundError Unit :=
  let normalized := forwardSlashes path
  if normalized.isEmpty || normalized.head? = some '/' || hasDrivePrefix normalized ||
      normalized.any isControl || (normalized.splitOn '/').any isDotPart then
    .error (.unsafePath path)
  else
    let extension := if normalized.contains '.' then
        some ((normalized.reverse.takeWhile (· ≠ '.')).reverse.map RustText.toAsciiLowercase)
      else none
    if extension = some "wav".toList ∨ extension = some "ogg".toList then .ok ()
    else .error (.unsupportedFormat path)

/-- Check one asset; `seen` are the paths before it and `total` is their size. -/
def validateAsset (seen : List String × ℕ) (asset : SoundAsset) :
    Except SoundError (List String × ℕ) := do
  validateAssetPath asset.path
  if RustText.asciiLowercase asset.path ∈ seen.1 then throw (.duplicateAsset asset.path)
  else if asset.sizeBytes = 0 ∨ maxAssetBytes < asset.sizeBytes then
    throw (.invalidAssetSize asset.path asset.sizeBytes)
  else if asset.durationMs = 0 ∨ maxDurationMs < asset.durationMs then
    throw (.invalidDuration asset.path asset.durationMs)
  else if 2 ^ 64 ≤ seen.2 + asset.sizeBytes then throw .themeTooLarge
  else pure (RustText.asciiLowercase asset.path :: seen.1, seen.2 + asset.sizeBytes)

def SoundTheme.validate (theme : SoundTheme) : Except SoundError Unit :=
  if theme.schemaVersion ≠ 1 then throw (.unsupportedSchema theme.schemaVersion)
  else if RustText.trim theme.id.toList = [] ∨ RustText.trim theme.name.toList = [] then
    throw (.invalidManifest "theme id and name must not be empty")
  else if theme.events = [] then throw (.invalidManifest "a theme must map at least one event")
  else do
    let (_, total) ← (theme.events.map Prod.snd).foldlM validateAsset ([], 0)
    if maxThemeBytes < total then throw .themeTooLarge else pure ()

/-- `reserved_theme_ids`. -/
def reservedThemeIds : List String := ["builtin.8-bit"]

def isReservedThemeId (themeId : String) : Bool :=
  let normalized := (RustText.trim themeId.toList).map RustText.toAsciiLowercase
  "builtin.".toList.isPrefixOf normalized || String.ofList normalized ∈ reservedThemeIds

def rejectReservedTheme (theme : SoundTheme) : Except SoundPackError Unit :=
  if isReservedThemeId theme.id then .error (.reservedThemeId theme.id) else .ok ()

/-- `validate_theme_id`, which playing and loading a theme use. -/
def validateThemeId (themeId : String) : Except SoundError Unit :=
  let text := themeId.toList
  if RustText.trim text = [] ∨ '/' ∈ text ∨ '\\' ∈ text ∨
      RustText.contains ['.', '.'] text = true ∨ text.any isControl = true then
    .error (.unsafePath themeId)
  else .ok ()

/-! ## Archives -/

/-- An entry of an archive as the archive library returns it. -/
structure ZipFile where
  name : String
  isDir : Bool
  read : Except String (List UInt8)

/-- The bytes of a pack : their number, and the archive they are. -/
structure PackBytes where
  size : ℕ
  archive : Except String (List (Except String ZipFile))

/-- What the JSON library and the hash function make of bytes. -/
structure Reader where
  theme : List UInt8 → Except String SoundTheme
  integrity : List UInt8 → Option SoundPackIntegrity
  sha256Hex : List UInt8 → String

/-- A map from the names of files to their contents. -/
abbrev PackEntries := List (String × List UInt8)

/-- The entries in the order of their names. -/
def PackEntries.sorted (entries : PackEntries) : PackEntries :=
  entries.insertionSort fun a b => a.1 ≤ b.1

def normalizeArchivePath (raw : String) : Except SoundPackError String :=
  let replaced := forwardSlashes raw
  if replaced.isEmpty || replaced.head? = some '/' || hasDrivePrefix replaced then
    .error (.unsafeEntryPath raw)
  else
    let parts := replaced.splitOn '/'
    if parts.any isDotPart then .error (.unsafeEntryPath raw)
    else .ok (String.ofList (['/'].intercalate parts))

/-- Add an entry of the archive to those before it. -/
def addEntry (entries : PackEntries × ℕ) (entry : Except String ZipFile) :
    Except SoundPackError (PackEntries × ℕ) := do
  let file ← entry.mapError .invalidArchive
  let normalized ← normalizeArchivePath file.name
  if file.isDir || normalized.isEmpty then pure entries
  else
    let bytes ← file.read.mapError .invalidArchive
    if bytes = [] then throw (.invalidArchive ("archive entry `" ++ normalized ++ "` is empty"))
    else if maxAssetBytes < bytes.length then throw .packTooLarge
    else if 2 ^ 64 ≤ entries.2 + bytes.length then throw .packTooLarge
    else if maxPackBytes < entries.2 + bytes.length then throw .packTooLarge
    else if (entries.1.map Prod.fst).contains normalized then
      throw (.invalidArchive ("duplicate archive entry `" ++ normalized ++ "`"))
    else pure (entries.1 ++ [(normalized, bytes)], entries.2 + bytes.length)

def readArchiveEntries (pack : PackBytes) : Except SoundPackError PackEntries := do
  let archive ← pack.archive.mapError .invalidArchive
  if maxPackEntries < archive.length then
    throw (.invalidArchive ("too many entries (max " ++ toString maxPackEntries ++ ")"))
  else do
    let (entries, _) ← archive.foldlM addEntry ([], 0)
    pure entries

/-! ## Validation -/

section Validation

variable (reader : Reader)

def parseThemeManifest (bytes : List UInt8) : Except SoundPackError SoundTheme :=
  (reader.theme bytes).mapError fun error => .invalidTheme (.invalidManifest error)

def parseIntegrityManifest (bytes : List UInt8) : Except SoundPackError SoundPackIntegrity :=
  match reader.integrity bytes with
  | none => .error .missingIntegrity
  | some integrity =>
    if integrity.schemaVersion ≠ packSchemaVersion then
      .error (.unsupportedSchema integrity.schemaVersion)
    else if integrity.algorithm ≠ "sha256" then
      .error (.unsupportedIntegrityAlgorithm integrity.algorithm)
    else if integrity.files = [] then .error .missingIntegrity
    else .ok integrity

/-- A file the integrity manifest declares is there and has the declared hash. -/
def verifyFile (entries : PackEntries) (declared : String × String) :
    Except SoundPackError String := do
  let normalized ← normalizeArchivePath declared.1
  match entries.lookup normalized with
  | none => throw (.missingPackFile normalized)
  | some bytes =>
    let actual := reader.sha256Hex bytes
    if eqIgnoreAsciiCase declared.2 actual then pure normalized
    else throw (.hashMismatch normalized declared.2 actual)

def verifyIntegrity (integrity : SoundPackIntegrity) (entries : PackEntries) :
    Except SoundPackError Unit := do
  let declared ← integrity.files.mapM (verifyFile reader entries)
  match entries.sorted.find? fun e => e.1 ≠ integrityManifestName && !declared.contains e.1 with
  | some unexpected => throw (.unexpectedPackFile unexpected.1)
  | none => pure ()

def verifyAsset (entries : PackEntries) (asset : SoundAsset) : Except SoundPackError Unit :=
  if "builtin/".toList.isPrefixOf asset.path.toList then
    .error (.reservedAssetPrefix asset.path)
  else match entries.lookup asset.path with
    | none => .error (.missingPackFile asset.path)
    | some bytes =>
      if bytes.length ≠ asset.sizeBytes then
        .error (.invalidTheme (.invalidAssetSize asset.path asset.sizeBytes))
      else .ok ()

def verifyThemeAssetsPresent (theme : SoundTheme) (entries : PackEntries) :
    Except SoundPackError Unit :=
  (theme.events.map Prod.snd).forM (verifyAsset entries)

/-- The checks of the integrity manifest and of what it covers. -/
def verifyContents (theme : SoundTheme) (entries : PackEntries) : Except SoundPackError Unit :=
  match entries.lookup integrityManifestName with
  | none => throw .missingIntegrity
  | some manifest => do
    let integrity ← parseIntegrityManifest reader manifest
    if integrity.signature.isSome then throw .unsupportedSignature
    else do
      verifyIntegrity reader integrity entries
      verifyThemeAssetsPresent theme entries

def validatePackBytes (pack : PackBytes) : Except SoundPackError SoundPackValidation :=
  if pack.size = 0 ∨ maxPackBytes < pack.size then throw .packTooLarge
  else do
    let entries ← readArchiveEntries pack
    match entries.lookup themeManifestName with
    | none => throw (.invalidArchive "theme.json is required")
    | some manifest =>
      let theme ← parseThemeManifest reader manifest
      theme.validate.mapError .invalidTheme
      rejectReservedTheme theme
      verifyContents reader theme entries
      pure
        { theme
          trusted := true
          installed := false
          message := "sound pack passed validation" }

end Validation

/-! ## Installation -/

/-- Programs over a disk that fail with an error of the import. -/
abbrev InstallM := EStateM SoundPackError Disk

/-- `map_err`. -/
def viaDisk {α : Type} (wrap : String → SoundPackError) (m : DiskM α) : InstallM α := fun d =>
  match m d with
  | .ok a d' => .ok a d'
  | .error text d' => .error (wrap text) d'

def failIf (c : Bool) (e : SoundPackError) : InstallM Unit :=
  if c then throw e else pure ()

section Installation

variable (process : Process) (platform : Platform)

def installEntry (targetDir : Path) (entry : String × List UInt8) : InstallM Unit := do
  let destination := targetDir.join (.parse platform entry.1)
  viaDisk (fun error => .installFailed
      ("could not create parent directory for " ++ entry.1 ++ ": " ++ error))
    (createDirAll process platform destination.parent)
  viaDisk (fun error => .installFailed ("could not write " ++ entry.1 ++ ": " ++ error))
    (writeFile (process.locate destination) entry.2)

/-- What is installed : every file but the integrity manifest. -/
def installedFiles (entries : PackEntries) : PackEntries :=
  entries.sorted.filter fun e => e.1 ≠ integrityManifestName

def installValidatedPack (validation : SoundPackValidation) (entries : PackEntries)
    (themesRoot : Path) (reserved : List String) : InstallM SoundPackValidation := do
  ofResult (rejectReservedTheme validation.theme)
  let themeId := validation.theme.id
  failIf (reserved.any fun id => eqIgnoreAsciiCase id themeId) (.builtinThemeProtected themeId)
  let targetDir := themesRoot.join (.parse platform themeId)
  let d ← get
  failIf (pathExists process platform targetDir d.tree) (.themeAlreadyInstalled targetDir)
  viaDisk (fun error => .installFailed ("could not create theme directory: " ++ error))
    (createDirAll process platform targetDir)
  (installedFiles entries).forM (installEntry process platform targetDir)
  if ((installedFiles entries).map Prod.fst).contains themeManifestName then
    pure
      { theme := validation.theme
        trusted := validation.trusted
        installed := true
        message := "installed sound theme `" ++ themeId ++ "`" }
  else do
    let _ ← attempt (viaDisk .installFailed (removeDirAll (process.locate targetDir)))
    throw (.installFailed "theme.json was not written")

def validateAndInstallPackBytes (reader : Reader) (pack : PackBytes) (themesRoot : Path)
    (reserved : List String) : InstallM SoundPackValidation := do
  let entries ← ofResult (readArchiveEntries pack)
  let validation ← ofResult (validatePackBytes reader pack)
  installValidatedPack process platform validation entries themesRoot reserved

end Installation

/-! ## Names -/

/-- Without backslashes both platforms split alike. -/
theorem splitOnP_isSep (platform : Platform) {text : List Char} (h : '\\' ∉ text) :
    text.splitOnP platform.isSep = text.splitOn '/' := by
  rw [List.splitOn_eq_splitOnP]
  induction text with
  | nil => rfl
  | cons c text ih =>
    have hc : c ≠ '\\' := fun he => h (he ▸ List.mem_cons_self)
    have hsep : platform.isSep c = (c == '/') := by
      cases platform <;> simp [Platform.isSep, hc, beq_eq_decide]
    rw [List.splitOnP_cons_eq_if_modifyHead, List.splitOnP_cons_eq_if_modifyHead, hsep,
      ih fun hmem => h (List.mem_cons_of_mem _ hmem)]

/-- A letter and a colon are a drive prefix. -/
theorem hasDrivePrefix_letter {letter : Char} (h : isAsciiLetter letter = true)
    (rest : List Char) : hasDrivePrefix (letter :: ':' :: rest) = true := by
  have hsize : (String.utf8EncodeChar letter).length = 1 := by
    rw [String.length_utf8EncodeChar, Char.utf8Size]
    have hle : letter.val ≤ 127 := by
      simp only [isAsciiLetter, Bool.or_eq_true, Bool.and_eq_true, decide_eq_true_eq] at h
      have hnat : letter.val.toNat ≤ 127 := by
        have : letter.toNat = letter.val.toNat := rfl
        omega
      exact UInt32.le_iff_toNat_le.2 hnat
    exact if_pos hle
  have hcolon : String.utf8EncodeChar ':' = [58] := by decide
  rw [hasDrivePrefix, Utf8.encode_ofList, List.flatMap_cons, List.flatMap_cons, hcolon,
    List.getElem?_append_right (by omega), hsize]
  rfl

/-- A text that starts neither at a root nor with a drive has no prefix. -/
theorem volumeOf_relative (platform : Platform) {text : List Char} (hback : '\\' ∉ text)
    (hroot : text.head? ≠ some '/') (hdrive : ¬ hasDrivePrefix text = true) :
    volumeOf platform text = (none, false, text) := by
  cases text with
  | nil => cases platform <;> rfl
  | cons a text =>
    have hslash : a ≠ '/' := fun he => hroot (he ▸ rfl)
    have hbackslash : a ≠ '\\' := fun he => hback (he ▸ List.mem_cons_self)
    have hsep : platform.isSep a = false := by
      cases platform <;> simp [Platform.isSep, hslash, hbackslash]
    cases platform with
    | unix => simp only [volumeOf, List.head?_cons, Option.any_some, hsep]
    | windows =>
      cases text with
      | nil => simp only [volumeOf, List.head?_cons, Option.any_some, hsep]
      | cons b rest =>
        by_cases hcolon : b = ':'
        · subst hcolon
          have hletter : ¬ isAsciiLetter a = true :=
            fun hl => hdrive (hasDrivePrefix_letter hl rest)
          simp only [volumeOf, if_neg hletter, hsep]
        · simp [volumeOf, hsep]

theorem readable_addEntry {entries entries' : PackEntries × ℕ} {entry : Except String ZipFile}
    (hall : ∀ e ∈ entries.1, ∃ raw, normalizeArchivePath raw = .ok e.1)
    (h : addEntry entries entry = .ok entries') :
    ∀ e ∈ entries'.1, ∃ raw, normalizeArchivePath raw = .ok e.1 := by
  unfold addEntry at h
  obtain ⟨file, -, h⟩ := bind_eq_ok.1 h
  obtain ⟨normalized, hnormalized, h⟩ := bind_eq_ok.1 h
  split at h
  · cases h
    exact hall
  · obtain ⟨bytes, -, h⟩ := bind_eq_ok.1 h
    repeat (split at h; · cases h)
    cases h
    intro e he
    rcases List.mem_append.1 he with he | he
    · exact hall e he
    · rw [List.mem_singleton.1 he]
      exact ⟨_, hnormalized⟩

theorem readable_entries {pack : PackBytes} {entries : PackEntries}
    (h : readArchiveEntries pack = .ok entries) :
    ∀ e ∈ entries, ∃ raw, normalizeArchivePath raw = .ok e.1 := by
  unfold readArchiveEntries at h
  obtain ⟨archive, -, h⟩ := bind_eq_ok.1 h
  split at h
  · cases h
  · obtain ⟨result, hfold, h⟩ := bind_eq_ok.1 h
    cases h
    have hall : ∀ (archive : List (Except String ZipFile)) (start result : PackEntries × ℕ),
        (∀ e ∈ start.1, ∃ raw, normalizeArchivePath raw = .ok e.1) →
        archive.foldlM addEntry start = .ok result →
        ∀ e ∈ result.1, ∃ raw, normalizeArchivePath raw = .ok e.1 := by
      intro archive
      induction archive with
      | nil =>
        intro start result hstart hok
        cases hok
        exact hstart
      | cons entry archive ih =>
        intro start result hstart hok
        rw [List.foldlM_cons] at hok
        obtain ⟨next, hnext, hok⟩ := bind_eq_ok.1 hok
        exact ih next result (readable_addEntry hstart hnext) hok
    exact hall archive ([], 0) result (by simp) hfold

theorem plain_of_normalize (platform : Platform) {raw name : String}
    (h : normalizeArchivePath raw = .ok name) :
    ∃ parts, Path.parse platform name = ⟨none, false, parts⟩ ∧ Plain parts ∧ parts ≠ [] := by
  unfold normalizeArchivePath at h
  dsimp only at h
  split at h
  · cases h
  · rename_i hsafe
    split at h
    · cases h
    · rename_i hparts
      cases h
      rw [List.intercalate_splitOn]
      set text := forwardSlashes raw with htext
      have hback : '\\' ∉ text := by
        rw [htext, forwardSlashes]
        simp only [List.mem_map, not_exists, not_and]
        intro c _
        split
        · decide
        · rename_i hc
          exact hc
      simp only [Bool.or_eq_true, not_or, decide_eq_true_eq, List.isEmpty_iff] at hsafe
      obtain ⟨⟨hne, hroot⟩, hdrive⟩ := hsafe
      have hvolume : volumeOf platform text = (none, false, text) :=
        volumeOf_relative platform hback hroot hdrive
      have hdot : ∀ part ∈ text.splitOn '/', isDotPart part = false := by
        simpa using hparts
      refine ⟨components platform text, ?_, ?_, ?_⟩
      · simp only [Path.parse, String.toList_ofList, hvolume]
      · rw [Plain, components, splitOnP_isSep platform hback]
        intro hmem
        obtain ⟨part, hpart, hup⟩ := List.mem_map.1 hmem
        have hup' : part = ['.', '.'] := by
          rw [← String.toList_ofList (l := part), hup]
          rfl
        have hno := hdot part (List.mem_of_mem_filter hpart)
        rw [hup'] at hno
        cases hno
      · rw [components, splitOnP_isSep platform hback]
        have hkeep : (text.splitOn '/').filter (fun part => part ≠ [] ∧ part ≠ ['.']) =
            text.splitOn '/' := by
          refine List.filter_eq_self.2 fun part hpart => ?_
          have hno := hdot part hpart
          simp only [isDotPart, Bool.or_eq_false_iff, decide_eq_false_iff_not] at hno
          simpa using hno.1
        rw [hkeep]
        simp

/-! ## What an installation touches -/

/-- Inside a directory below the root that was not there : the directory itself or something
below it. -/
def InBox (tree : Tree) (root : Location) : Touch → Prop
  | .dir l => ∃ name, tree (root ++ [name]) = none ∧ root ++ [name] <+: l
  | .file l => ∃ name, tree (root ++ [name]) = none ∧ root ++ [name] <+: l.dropLast

/-- Below the directory a path leads to. -/
def Below (process : Process) (target : Path) : Touch → Prop
  | .dir l => process.locate target <+: l
  | .file l => process.locate target <+: l.dropLast

section Install

variable (process : Process) (platform : Platform)

/-- On the way from the themes root along the id everything that is missing lies in a new
directory below the root, and so does the end. -/
def Lands (tree : Tree) (themesRoot : Path) (themeId : String) : Prop :=
  let target := themesRoot.join (.parse platform themeId)
  (∀ l ∈ process.steps platform target, tree l = none →
    InBox tree (process.locate themesRoot) (.dir l)) ∧
  InBox tree (process.locate themesRoot) (.dir (process.locate target))

variable {process platform} {d : Disk} {target : Path}

theorem wp_viaDisk {α : Type} {wrap : String → SoundPackError} {m : DiskM α}
    {Q : α → Disk → Prop} {E : SoundPackError → Disk → Prop} :
    wp (viaDisk wrap m) d Q E ↔ wp m d Q fun text => E (wrap text) := by
  unfold wp viaDisk
  cases m d <;> rfl

theorem join_relative (target : Path) (parts : List String) :
    target.join ⟨none, false, parts⟩ = { target with parts := target.parts ++ parts } :=
  rfl

theorem locate_join {parts : List String} (h : Plain parts) :
    process.locate (target.join ⟨none, false, parts⟩) = process.locate target ++ parts := by
  show (target.parts ++ parts).foldl descend _ = _
  rw [List.foldl_append, foldl_descend h]
  rfl

variable {raw : String} {entries : PackEntries} {v : SoundPackValidation} {themesRoot : Path}

/-- The file of an entry lies below the target. -/
theorem below_entry {name : String} (h : normalizeArchivePath raw = .ok name) :
    Below process target (.file (process.locate (target.join (.parse platform name)))) := by
  obtain ⟨parts, hparse, hplain, hne⟩ := plain_of_normalize platform h
  rw [hparse, locate_join hplain, Below, List.dropLast_append_of_ne_nil hne]
  exact List.prefix_append _ _

/-- What is walked through to the file of an entry is walked through to the target, or lies
below it. -/
theorem steps_entry {name : String} (h : normalizeArchivePath raw = .ok name) {l : Location}
    (hl : l ∈ process.steps platform (target.join (.parse platform name)).parent) :
    l ∈ process.steps platform target ∨ Below process target (.dir l) := by
  obtain ⟨parts, hparse, hplain, hne⟩ := plain_of_normalize platform h
  rw [hparse, join_relative] at hl
  have hparent : Path.parent { target with parts := target.parts ++ parts } =
      { target with parts := target.parts ++ parts.dropLast } := by
    rw [Path.parent, List.dropLast_append_of_ne_nil hne]
  rw [hparent] at hl
  exact mem_steps_below process platform target
    (fun hmem => hplain (List.mem_of_mem_dropLast hmem)) hl

/-- An entry touches what is below the target, once the target is there. -/
theorem wp_installEntry {entry : String × List UInt8}
    (hname : normalizeArchivePath raw = .ok entry.1)
    (hdirs : ∀ l ∈ process.steps platform target, d.tree l = some .dir) :
    wp (installEntry process platform target entry) d
      (fun _ d' => Adds (Below process target) d d' ∧
        .file (process.locate (target.join (.parse platform entry.1))) ∈ d'.touched)
      fun _ => Adds (Below process target) d := by
  have hnew : ∀ t, (∃ l ∈ process.steps platform (target.join (.parse platform entry.1)).parent,
      t = .dir l ∧ d.tree l = none) → Below process target t := by
    rintro t ⟨l, hl, rfl, hmissing⟩
    refine (steps_entry hname hl).resolve_left fun hstep => ?_
    rw [hdirs l hstep] at hmissing
    cases hmissing
  unfold installEntry
  rw [wp_bind, wp_viaDisk]
  refine wp_mono (wp_createDirAll _ _ _) (fun _ d₁ h₁ => ?_) fun _ _ h => h.mono hnew
  have hadds := h₁.1.mono hnew
  rw [wp_viaDisk]
  have hfile : ∀ t, t = .file (process.locate (target.join (.parse platform entry.1))) →
      Below process target t := by
    rintro t rfl
    exact below_entry hname
  exact wp_mono (wp_writeFile _ _) (fun _ _ h => ⟨hadds.trans (h.1.mono hfile), h.2⟩)
    fun _ _ h => hadds.trans (h.mono hfile)

theorem wp_installEntries (hnames : ∀ e ∈ entries, ∃ raw, normalizeArchivePath raw = .ok e.1)
    (hdirs : ∀ l ∈ process.steps platform target, d.tree l = some .dir) :
    wp (entries.forM (installEntry process platform target)) d
      (fun _ d' => Adds (Below process target) d d' ∧ ∀ e ∈ entries,
        .file (process.locate (target.join (.parse platform e.1))) ∈ d'.touched)
      fun _ => Adds (Below process target) d := by
  induction entries generalizing d with
  | nil => exact ⟨.refl d, by simp⟩
  | cons entry rest ih =>
    obtain ⟨raw, hname⟩ := hnames entry List.mem_cons_self
    show wp (installEntry process platform target entry >>= fun _ =>
      rest.forM (installEntry process platform target)) d _ _
    rw [wp_bind]
    refine wp_mono (wp_installEntry hname hdirs) (fun _ d₁ h₁ => ?_) fun _ _ h => h
    refine wp_mono (ih (fun e he => hnames e (List.mem_cons_of_mem _ he))
      fun l hl => h₁.1.dirs l (hdirs l hl)) (fun _ d₂ h₂ => ⟨h₁.1.trans h₂.1, ?_⟩)
      fun _ _ h => h₁.1.trans h
    intro e he
    rcases List.mem_cons.1 he with rfl | he
    · obtain ⟨more, hmore, -⟩ := h₂.1.touched
      rw [hmore]
      exact List.mem_append_left _ h₁.2
    · exact h₂.2 e he

/-- What an installation may touch : what is missing on the way to the target, and what is
below the target. -/
def Planned (process : Process) (platform : Platform) (tree : Tree) (target : Path)
    (t : Touch) : Prop :=
  (∃ l ∈ process.steps platform target, t = .dir l ∧ tree l = none) ∨ Below process target t

/-- An installation is refused before anything is created. -/
def Refused (process : Process) (platform : Platform) (tree : Tree) (themesRoot : Path)
    (reserved : List String) (themeId : String) : Prop :=
  (reserved.any fun id => eqIgnoreAsciiCase id themeId) = true ∨
    pathExists process platform (themesRoot.join (.parse platform themeId)) tree = true

theorem wp_installValidatedPack {reserved : List String}
    (hnames : ∀ e ∈ entries, ∃ raw, normalizeArchivePath raw = .ok e.1)
    (htheme : themeManifestName ∈ entries.map Prod.fst)
    (htarget : themesRoot.join (.parse platform v.theme.id) = target) :
    wp (installValidatedPack process platform v entries themesRoot reserved) d
      (fun _ d' => ¬ Refused process platform d.tree themesRoot reserved v.theme.id ∧
        Adds (Planned process platform d.tree target) d d' ∧
        (∀ l ∈ process.steps platform target, d.tree l = none → .dir l ∈ d'.touched) ∧
        .file (process.locate target ++ [themeManifestName]) ∈ d'.touched)
      fun _ d' => Adds (Planned process platform d.tree target) d d' ∧
        (Refused process platform d.tree themesRoot reserved v.theme.id → d' = d) := by
  have hinstalled : ∀ e ∈ installedFiles entries, ∃ raw, normalizeArchivePath raw = .ok e.1 := by
    intro e he
    exact hnames e ((List.perm_insertionSort _ _).mem_iff.1 (List.mem_of_mem_filter he))
  have hmanifest : themeManifestName ∈ (installedFiles entries).map Prod.fst := by
    obtain ⟨e, he, hkey⟩ := List.mem_map.1 htheme
    refine List.mem_map.2 ⟨e, List.mem_filter.2 ⟨?_, ?_⟩, hkey⟩
    · exact (List.perm_insertionSort _ _).mem_iff.2 he
    · rw [hkey]
      decide
  unfold installValidatedPack Refused
  simp only [wp_bind, wp_ofResult, failIf]
  refine ⟨fun _ _ => ?_, fun _ _ => ⟨.refl d, fun _ => trivial⟩⟩
  split
  · exact ⟨.refl d, fun _ => rfl⟩
  rename_i hfree
  rw [wp_pure, wp_get, htarget]
  split
  · exact ⟨.refl d, fun _ => rfl⟩
  rename_i hnew
  rw [wp_pure, wp_viaDisk]
  have hallowed : ¬ ((reserved.any fun id => eqIgnoreAsciiCase id v.theme.id) = true ∨
      pathExists process platform target d.tree = true) := not_or.2 ⟨hfree, hnew⟩
  have hleft : ∀ {d'}, Adds (fun t => ∃ l ∈ process.steps platform target,
      t = .dir l ∧ d.tree l = none) d d' → Adds (Planned process platform d.tree target) d d' :=
    fun h => h.mono fun _ ht => Or.inl ht
  refine wp_mono (wp_createDirAll _ _ _) (fun _ d₁ h₁ => ?_)
    fun _ _ h => ⟨hleft h, fun he => absurd he hallowed⟩
  obtain ⟨hadds, hdirs⟩ := h₁
  refine wp_mono (wp_installEntries hinstalled fun l hl => (hdirs l hl).1) (fun _ d₂ h₂ => ?_)
    fun _ _ h => ⟨(hleft hadds).trans (h.mono fun _ ht => Or.inr ht),
      fun he => absurd he hallowed⟩
  obtain ⟨hbelow, hfiles⟩ := h₂
  rw [if_pos (by simpa using hmanifest), wp_pure]
  refine ⟨hallowed, (hleft hadds).trans (hbelow.mono fun _ ht => Or.inr ht),
    fun l hl hmissing => ?_, ?_⟩
  · obtain ⟨more, hmore, -⟩ := hbelow.touched
    rw [hmore]
    exact List.mem_append_left _ ((hdirs l hl).2 hmissing)
  · obtain ⟨e, he, hkey⟩ := List.mem_map.1 hmanifest
    have hfile := hfiles e he
    have hparse : Path.parse platform themeManifestName = ⟨none, false, [themeManifestName]⟩ := by
      cases platform <;> decide
    have hplain : Plain [themeManifestName] := by
      show ".." ∉ [themeManifestName]
      decide
    rw [hkey, hparse, locate_join hplain] at hfile
    exact hfile

/-! ## The box -/

theorem inBox_of_planned {tree : Tree} {themeId : String}
    (h : Lands process platform tree themesRoot themeId) {t : Touch}
    (ht : Planned process platform tree (themesRoot.join (.parse platform themeId)) t) :
    InBox tree (process.locate themesRoot) t := by
  obtain ⟨hsteps, name, hnew, hpre⟩ := h
  rcases ht with ⟨l, hl, rfl, hmissing⟩ | hbelow
  · exact hsteps l hl hmissing
  · cases t with
    | dir l => exact ⟨name, hnew, hpre.trans hbelow⟩
    | file l => exact ⟨name, hnew, hpre.trans hbelow⟩

/-- The way to the target is in the box if what it creates and the manifest are. -/
theorem lands_of_inBox {tree : Tree} {themeId : String}
    (hdirs : ∀ l ∈ process.steps platform (themesRoot.join (.parse platform themeId)),
      tree l = none → InBox tree (process.locate themesRoot) (.dir l))
    (hfile : InBox tree (process.locate themesRoot) (.file
      (process.locate (themesRoot.join (.parse platform themeId)) ++ [themeManifestName]))) :
    Lands process platform tree themesRoot themeId := by
  obtain ⟨name, hnew, hpre⟩ := hfile
  rw [List.dropLast_concat] at hpre
  exact ⟨hdirs, name, hnew, hpre⟩

/-- A pack that passes validation has a theme manifest. -/
theorem manifest_of_validatePackBytes {reader : Reader} {pack : PackBytes}
    (hentries : readArchiveEntries pack = .ok entries) (h : validatePackBytes reader pack = .ok v) :
    themeManifestName ∈ entries.map Prod.fst := by
  by_contra hno
  have hnone : entries.lookup themeManifestName = none := by
    refine List.lookup_eq_none_iff.2 fun e he => ?_
    have hkey : themeManifestName ≠ e.1 := fun hkey => hno (hkey ▸ List.mem_map_of_mem he)
    simpa using hkey
  unfold validatePackBytes at h
  split at h
  · cases h
  · obtain ⟨entries', hentries', h⟩ := bind_eq_ok.1 h
    obtain rfl := Except.ok.inj (hentries.symm.trans hentries')
    rw [hnone] at h
    cases h

/-- Everything a call creates or writes, whether it fails or not. -/
def touchedBy {α : Type} (m : InstallM α) (d : Disk) : List Touch :=
  match m d with
  | .ok _ d' => d'.touched
  | .error _ d' => d'.touched

variable (process platform)

/-- A pack that passes validation is refused or lands in the box. -/
def PackLands (reader : Reader) (tree : Tree) (pack : PackBytes) (themesRoot : Path)
    (reserved : List String) : Prop :=
  ∀ v, validatePackBytes reader pack = .ok v →
    Refused process platform tree themesRoot reserved v.theme.id ∨
      Lands process platform tree themesRoot v.theme.id

/-- Sound packs stay in their box : if a pack lands in it, everything the installation creates
or writes is inside a new directory below the themes root, and a pack that was installed so
landed in it. -/
theorem pack_in_box (reader : Reader) (pack : PackBytes) (themesRoot : Path)
    (reserved : List String) (tree : Tree) (faults : List Bool) :
    let call := validateAndInstallPackBytes process platform reader pack themesRoot reserved
    let stays := ∀ t ∈ touchedBy call ⟨tree, [], faults⟩, InBox tree (process.locate themesRoot) t
    (PackLands process platform reader tree pack themesRoot reserved → stays) ∧
      ((∃ v d', call ⟨tree, [], faults⟩ = .ok v d') →
        (stays ↔ PackLands process platform reader tree pack themesRoot reserved)) := by
  intro call stays
  have hcall : wp call ⟨tree, [], faults⟩
      (fun _ d' => (∀ t ∈ d'.touched, InBox tree (process.locate themesRoot) t) ↔
        PackLands process platform reader tree pack themesRoot reserved)
      fun _ d' => PackLands process platform reader tree pack themesRoot reserved →
        ∀ t ∈ d'.touched, InBox tree (process.locate themesRoot) t := by
    show wp (validateAndInstallPackBytes process platform reader pack themesRoot reserved) _ _ _
    unfold validateAndInstallPackBytes
    simp only [wp_bind, wp_ofResult]
    refine ⟨fun entries hentries => ⟨fun v hv => ?_, fun _ _ _ => by simp⟩,
      fun _ _ _ => by simp⟩
    have hplanned : ∀ {d' : Disk}, Adds (Planned process platform tree
        (themesRoot.join (.parse platform v.theme.id))) ⟨tree, [], faults⟩ d' →
        Lands process platform tree themesRoot v.theme.id →
        ∀ t ∈ d'.touched, InBox tree (process.locate themesRoot) t := by
      intro d' hadds hlands t ht
      obtain ⟨more, hmore, hall⟩ := hadds.touched
      rw [hmore] at ht
      exact inBox_of_planned hlands (hall t (by simpa using ht))
    refine wp_mono (wp_installValidatedPack (readable_entries hentries)
      (manifest_of_validatePackBytes hentries hv) rfl) (fun _ d' h => ⟨fun hin => ?_, ?_⟩)
      fun _ d' h hlands => ?_
    · intro v' hv'
      obtain rfl := Except.ok.inj (hv.symm.trans hv')
      exact Or.inr (lands_of_inBox (fun l hl hmissing => hin _ (h.2.2.1 l hl hmissing))
        (hin _ h.2.2.2))
    · exact fun hlands => hplanned h.2.1 ((hlands v hv).resolve_left h.1)
    · rcases hlands v hv with hrefused | hlands
      · rw [h.2 hrefused]
        simp
      · exact hplanned h.1 hlands
  have htouched : ∀ {v d'}, call ⟨tree, [], faults⟩ = .ok v d' →
      touchedBy call ⟨tree, [], faults⟩ = d'.touched := fun h => by rw [touchedBy, h]
  constructor
  · intro hlands
    show ∀ t ∈ touchedBy call ⟨tree, [], faults⟩, _
    unfold wp at hcall
    unfold touchedBy
    cases hrun : call ⟨tree, [], faults⟩ with
    | ok v d' =>
      rw [hrun] at hcall
      exact hcall.2 hlands
    | error e d' =>
      rw [hrun] at hcall
      exact hcall hlands
  · rintro ⟨v, d', hok⟩
    have h := wp_ok hcall hok
    show (∀ t ∈ touchedBy call ⟨tree, [], faults⟩, _) ↔ _
    rw [htouched hok]
    exact h

end Install

/-! ## Names of themes -/

section Child

variable (process : Process) (path : Path) {name : String}

theorem locate_child (h : name ≠ "..") :
    process.locate { path with parts := path.parts ++ [name] } = process.locate path ++ [name] := by
  show (path.parts ++ [name]).foldl descend _ = _
  rw [List.foldl_concat, descend, if_neg h]
  rfl

theorem steps_child (h : name ≠ "..") :
    process.steps .unix { path with parts := path.parts ++ [name] } =
      process.steps .unix path ++ [process.locate path ++ [name]] := by
  show (path.parts ++ [name]).scanl descend _ = _
  rw [List.scanl_append]
  simp [descend, if_neg h, Process.steps, Process.locate, Process.start]

end Child

/-- On a platform without drives, the id of a theme that can be played names a directory in
the themes root. -/
theorem lands_of_validateThemeId {process : Process} {tree : Tree} {themesRoot : Path}
    {themeId : String} (hid : validateThemeId themeId = .ok ())
    (hroot : ∀ l ∈ process.steps .unix themesRoot, tree l = some .dir)
    (hnew : ¬ pathExists process .unix (themesRoot.join (.parse .unix themeId)) tree = true) :
    Lands process .unix tree themesRoot themeId := by
  have hroot' : tree (process.locate themesRoot) = some .dir := by
    exact hroot _ (List.mem_of_getLast? List.getLast?_scanl)
  unfold validateThemeId at hid
  dsimp only at hid
  split at hid
  · cases hid
  · rename_i hchecks
    simp only [not_or] at hchecks
    obtain ⟨-, hslash, -, hdots, -⟩ := hchecks
    have hparts : Path.parse .unix themeId = ⟨none, false, components .unix themeId.toList⟩ := by
      have hhead : themeId.toList.head?.any Platform.unix.isSep = false := by
        cases h : themeId.toList with
        | nil => rfl
        | cons c text =>
          have hc : c ≠ '/' := fun he => hslash (by rw [h, he]; exact List.mem_cons_self)
          simp [Platform.isSep, hc]
      simp only [Path.parse, volumeOf, hhead]
    have hsplit : themeId.toList.splitOnP Platform.unix.isSep = [themeId.toList] := by
      refine List.splitOnP_eq_singleton fun c hc => ?_
      simpa [Platform.isSep] using fun he : c = '/' => hslash (he ▸ hc)
    rw [hparts, join_relative] at hnew
    unfold Lands
    dsimp only
    rw [hparts, join_relative]
    by_cases hdot : themeId.toList ≠ [] ∧ themeId.toList ≠ ['.']
    · have hcomponents : components .unix themeId.toList = [themeId] := by
        rw [components, hsplit, List.filter_cons_of_pos (by simpa using hdot), List.filter_nil,
          List.map_singleton, String.ofList_toList]
      have hname : themeId ≠ ".." := by
        rintro rfl
        exact hdots (by decide)
      have hsteps := steps_child process themesRoot hname
      have htarget := locate_child process themesRoot hname
      rw [hcomponents] at hnew ⊢
      have hmissing : tree (process.locate themesRoot ++ [themeId]) = none := by
        by_contra hthere
        refine hnew (Bool.and_eq_true_iff.2 ⟨List.all_eq_true.2 fun l hl => ?_, ?_⟩)
        · rw [hsteps, List.dropLast_concat] at hl
          simpa using hroot l hl
        · rw [htarget]
          exact Option.isSome_iff_ne_none.2 hthere
      refine ⟨fun l hl hl' => ?_, themeId, hmissing, by rw [htarget]⟩
      rw [hsteps, List.mem_append, List.mem_singleton] at hl
      rcases hl with hl | rfl
      · rw [hroot l hl] at hl'
        cases hl'
      · exact ⟨themeId, hmissing, List.prefix_rfl⟩
    · -- the id is `.` : the target is the root itself, which is there
      have hcomponents : components .unix themeId.toList = [] := by
        rw [components, hsplit, List.filter_cons_of_neg (by simpa using hdot), List.filter_nil]
        rfl
      rw [hcomponents, List.append_nil] at hnew
      refine absurd (Bool.and_eq_true_iff.2 ⟨List.all_eq_true.2 fun l hl => ?_, ?_⟩) hnew
      · simpa using hroot l (List.mem_of_mem_dropLast hl)
      · exact Option.isSome_iff_exists.2 ⟨_, hroot'⟩

/-! ## A pack -/

section Sample

/-- A theme with one sound. -/
def sampleTheme (themeId : String) : SoundTheme :=
  { schemaVersion := 1
    id := themeId
    name := "Test Pack"
    author := "Test Author"
    events := [(.completed, ⟨"sounds/completed.wav", 4, 500⟩)] }

def sampleSound : List UInt8 := [82, 73, 70, 70]

def sampleThemeJson (themeId : String) : List UInt8 :=
  Utf8.encode ("\x7b\"schemaVersion\":1,\"id\":\"" ++ themeId ++
    "\",\"name\":\"Test Pack\",\"author\":\"Test Author\",\"events\":\x7b\"completed\":" ++
    "\x7b\"path\":\"sounds/completed.wav\",\"sizeBytes\":4,\"durationMs\":500\x7d\x7d\x7d")

def sampleSoundHash : String :=
  "a40ff3d5900fb7698b8c865041347cb49eccedc8f93945f89629ad104aaecce4"

def sampleIntegrityJson (themeHash : String) : List UInt8 :=
  Utf8.encode ("\x7b\"schemaVersion\":1,\"algorithm\":\"sha256\",\"files\":" ++
    "\x7b\"sounds/completed.wav\":\"" ++ sampleSoundHash ++ "\",\"theme.json\":\"" ++ themeHash ++
    "\"\x7d\x7d")

def sampleEntries (themeId themeHash : String) : PackEntries :=
  [("integrity.json", sampleIntegrityJson themeHash), ("sounds/completed.wav", sampleSound),
    ("theme.json", sampleThemeJson themeId)]

/-- The archive of a theme, its files stored one after another. -/
def samplePack (size : ℕ) (themeId themeHash : String) : PackBytes :=
  ⟨size, .ok ((sampleEntries themeId themeHash).map fun e => .ok ⟨e.1, false, .ok e.2⟩)⟩

/-- What the libraries make of the files of the pack. -/
def sampleReader (themeId themeHash : String) : Reader where
  theme bytes :=
    if bytes = sampleThemeJson themeId then .ok (sampleTheme themeId)
    else .error "expected value at line 1 column 1"
  integrity bytes :=
    if bytes = sampleIntegrityJson themeHash then
      some ⟨1, "sha256",
        [("sounds/completed.wav", sampleSoundHash), ("theme.json", themeHash)], none⟩
    else none
  sha256Hex bytes := if bytes = sampleSound then sampleSoundHash else themeHash

/-- The themes root `/data/themes` and nothing below it. -/
def sampleTree : Tree := fun l =>
  if l ∈ [["/"], ["/", "data"], ["/", "data", "themes"]] then some .dir else none

def sampleRoot : Path := .parse .unix "/data/themes"

def sampleProcess : Process := ⟨["/"], fun volume => [volume]⟩

def sampleInstall (size : ℕ) (themeId themeHash : String) : InstallM SoundPackValidation :=
  validateAndInstallPackBytes sampleProcess .unix (sampleReader themeId themeHash)
    (samplePack size themeId themeHash) sampleRoot reservedThemeIds

def packHash : String := "2c2d81cca6ba03d4dfcf2867a3811ea2ee9d27e0f126b7e276d36f4a1eb01060"

def escapingHash : String := "c239f1f8905144a09428c88021b2424354b2f933f4bc2841ad9eb69f12cd9934"

/-- The program returns on the disk, and leaves one that satisfies `p`. -/
def succeedsWith {α : Type} (m : InstallM α) (d : Disk) (p : Disk → Bool) : Bool :=
  match m d with
  | .ok _ d' => p d'
  | .error _ _ => false

theorem exists_ok_of_succeedsWith {α : Type} {m : InstallM α} {d : Disk} {p : Disk → Bool}
    (h : succeedsWith m d p = true) : ∃ v d', m d = .ok v d' ∧ p d' = true := by
  unfold succeedsWith at h
  cases hrun : m d with
  | ok v d' =>
    rw [hrun] at h
    exact ⟨v, d', rfl, h⟩
  | error e d' =>
    rw [hrun] at h
    cases h

variable {reader : Reader} {entries : PackEntries} {themeId themeHash : String}
  {manifest : List UInt8}

/-- A file whose hash is the declared one passes. -/
theorem verifyFile_own {name normalized : String} {bytes : List UInt8}
    (hname : normalizeArchivePath name = .ok normalized)
    (hentry : entries.lookup normalized = some bytes) :
    verifyFile reader entries (name, reader.sha256Hex bytes) = .ok normalized := by
  have hsame : eqIgnoreAsciiCase (reader.sha256Hex bytes) (reader.sha256Hex bytes) = true :=
    decide_eq_true rfl
  unfold verifyFile
  rw [hname]
  show (match entries.lookup normalized with
    | none => _
    | some bytes => _) = _
  rw [hentry]
  exact if_pos hsame

/-- An entry under a plain name that is not there yet is added. -/
theorem addEntry_new {entries : PackEntries × ℕ} {name : String} {bytes : List UInt8}
    (hname : normalizeArchivePath name = .ok name) (hempty : name ≠ "") (hbytes : bytes ≠ [])
    (hasset : bytes.length ≤ maxAssetBytes) (hsize : entries.2 + bytes.length ≤ maxPackBytes)
    (hnew : (entries.1.map Prod.fst).contains name = false) :
    addEntry entries (.ok ⟨name, false, .ok bytes⟩) =
      .ok (entries.1 ++ [(name, bytes)], entries.2 + bytes.length) := by
  have hlimit : maxPackBytes < 2 ^ 64 := by decide
  simp only [addEntry, Except.mapError, bind, Except.bind, hname, Bool.false_or]
  rw [if_neg (by simpa using hempty), if_neg hbytes, if_neg (by omega), if_neg (by omega),
    if_neg (by omega), hnew]
  rfl

theorem normalize_sampleNames :
    normalizeArchivePath "integrity.json" = .ok "integrity.json" ∧
      normalizeArchivePath "sounds/completed.wav" = .ok "sounds/completed.wav" ∧
      normalizeArchivePath "theme.json" = .ok "theme.json" := by
  decide

/-- An entry that can be stored as it is. -/
def Storable (e : String × List UInt8) : Prop :=
  normalizeArchivePath e.1 = .ok e.1 ∧ e.1 ≠ "" ∧ e.2 ≠ [] ∧ e.2.length ≤ maxAssetBytes

theorem foldlM_addEntry_stored (before : PackEntries × ℕ) (hstorable : ∀ e ∈ entries, Storable e)
    (hsize : before.2 + (entries.map fun e => e.2.length).sum ≤ maxPackBytes)
    (hnodup : ((before.1 ++ entries).map Prod.fst).Nodup) :
    (entries.map fun e => (.ok ⟨e.1, false, .ok e.2⟩ : Except String ZipFile)).foldlM addEntry
      before = .ok (before.1 ++ entries, before.2 + (entries.map fun e => e.2.length).sum) := by
  induction entries generalizing before with
  | nil => simp [pure, Except.pure]
  | cons e entries ih =>
    obtain ⟨hname, hempty, hbytes, hasset⟩ := hstorable e List.mem_cons_self
    rw [List.map_cons, List.sum_cons] at hsize
    have hnew : (before.1.map Prod.fst).contains e.1 = false := by
      rw [List.map_append, List.map_cons] at hnodup
      have hdisjoint := (List.nodup_append.1 hnodup).2.2
      refine Bool.eq_false_iff.2 fun hin => ?_
      exact hdisjoint e.1 (by simpa using hin) e.1 List.mem_cons_self rfl
    have hnodup' : (((before.1 ++ [e]) ++ entries).map Prod.fst).Nodup := by
      rwa [List.append_assoc, List.singleton_append]
    have hrest := ih (before.1 ++ [e], before.2 + e.2.length)
      (fun e' he' => hstorable e' (List.mem_cons_of_mem _ he')) (by dsimp only; omega) hnodup'
    rw [List.map_cons, List.foldlM_cons, addEntry_new hname hempty hbytes hasset (by omega) hnew]
    refine hrest.trans ?_
    rw [List.append_assoc, List.singleton_append, List.map_cons, List.sum_cons, Nat.add_assoc]

/-- Entries that can be stored are read as they are. -/
theorem readArchiveEntries_stored {size : ℕ} (hcount : entries.length ≤ maxPackEntries)
    (hstorable : ∀ e ∈ entries, Storable e)
    (hsize : (entries.map fun e => e.2.length).sum ≤ maxPackBytes)
    (hnodup : (entries.map Prod.fst).Nodup) :
    readArchiveEntries ⟨size, .ok (entries.map fun e => .ok ⟨e.1, false, .ok e.2⟩)⟩ =
      .ok entries := by
  have hfold := foldlM_addEntry_stored ([], 0) hstorable (by rwa [Nat.zero_add]) hnodup
  have hfew : ¬ maxPackEntries < (entries.map fun e =>
      (.ok ⟨e.1, false, .ok e.2⟩ : Except String ZipFile)).length := by
    rw [List.length_map]
    omega
  unfold readArchiveEntries
  simp only [Except.mapError, bind, Except.bind, if_neg hfew, hfold]
  rfl

theorem readArchiveEntries_sample (size : ℕ)
    (hintegrity : 0 < (sampleIntegrityJson themeHash).length ∧
      (sampleIntegrityJson themeHash).length ≤ 1000)
    (htheme : 0 < (sampleThemeJson themeId).length ∧ (sampleThemeJson themeId).length ≤ 1000) :
    readArchiveEntries (samplePack size themeId themeHash) =
      .ok (sampleEntries themeId themeHash) := by
  obtain ⟨hintegrityName, hsoundName, hthemeName⟩ := normalize_sampleNames
  have hlimits : 1000 ≤ maxAssetBytes ∧ 3000 ≤ maxPackBytes := by decide
  have hsound : sampleSound.length = 4 := rfl
  refine readArchiveEntries_stored (by simp [sampleEntries, maxPackEntries]) (fun e he => ?_) ?_
    (by simp [sampleEntries])
  · simp only [sampleEntries, List.mem_cons, List.not_mem_nil, or_false] at he
    rcases he with rfl | rfl | rfl
    · exact ⟨hintegrityName, by simp, List.ne_nil_of_length_pos hintegrity.1, by dsimp only; omega⟩
    · exact ⟨hsoundName, by simp, by simp [sampleSound], by dsimp only; omega⟩
    · exact ⟨hthemeName, by simp, List.ne_nil_of_length_pos htheme.1, by dsimp only; omega⟩
  · simp only [sampleEntries, List.map_cons, List.map_nil, List.sum_cons, List.sum_nil]
    omega

theorem verifyFile_sampleSound (themeId themeHash : String) :
    verifyFile (sampleReader themeId themeHash) (sampleEntries themeId themeHash)
      ("sounds/completed.wav", sampleSoundHash) = .ok "sounds/completed.wav" := by
  have hhash : (sampleReader themeId themeHash).sha256Hex sampleSound = sampleSoundHash := by
    simp [sampleReader]
  have hentry : (sampleEntries themeId themeHash).lookup "sounds/completed.wav" =
      some sampleSound := by
    simp [sampleEntries, List.lookup_cons]
  exact hhash ▸ verifyFile_own normalize_sampleNames.2.1 hentry

theorem verifyFile_sampleTheme (themeHash : String)
    (hother : sampleThemeJson themeId ≠ sampleSound) :
    verifyFile (sampleReader themeId themeHash) (sampleEntries themeId themeHash)
      ("theme.json", themeHash) = .ok "theme.json" := by
  have hhash : (sampleReader themeId themeHash).sha256Hex (sampleThemeJson themeId) =
      themeHash := by
    simp [sampleReader, hother]
  have hentry : (sampleEntries themeId themeHash).lookup "theme.json" =
      some (sampleThemeJson themeId) := by
    simp [sampleEntries, List.lookup_cons]
  have hverified : verifyFile (sampleReader themeId themeHash) _ (_, _) = _ :=
    verifyFile_own normalize_sampleNames.2.2 hentry
  rwa [hhash] at hverified

/-- The declared files are all there is. -/
theorem verifyIntegrity_ok {integrity : SoundPackIntegrity} {declared : List String}
    (hdeclared : integrity.files.mapM (verifyFile reader entries) = .ok declared)
    (hlisted : ∀ e ∈ entries, e.1 = integrityManifestName ∨ e.1 ∈ declared) :
    verifyIntegrity reader integrity entries = .ok () := by
  have hnone : entries.sorted.find? (fun e =>
      e.1 ≠ integrityManifestName && !declared.contains e.1) = none := by
    refine List.find?_eq_none.2 fun e he => ?_
    rw [PackEntries.sorted, List.mem_insertionSort] at he
    rcases hlisted e he with h | h
    · simp [h]
    · simp [h]
  unfold verifyIntegrity
  rw [hdeclared]
  simp only [bind, Except.bind]
  rw [hnone]
  rfl

theorem verifyContents_ok {theme : SoundTheme} {integrity : SoundPackIntegrity}
    (hmanifest : entries.lookup integrityManifestName = some manifest)
    (hparse : parseIntegrityManifest reader manifest = .ok integrity)
    (hsignature : integrity.signature = none)
    (hverify : verifyIntegrity reader integrity entries = .ok ())
    (hassets : verifyThemeAssetsPresent theme entries = .ok ()) :
    verifyContents reader theme entries = .ok () := by
  unfold verifyContents
  rw [hmanifest]
  dsimp only
  rw [hparse]
  simp only [bind, Except.bind, hsignature, Option.isSome_none, Bool.false_eq_true, if_false,
    hverify, hassets]

theorem validatePackBytes_ok {pack : PackBytes} {theme : SoundTheme}
    (hsize : ¬ (pack.size = 0 ∨ maxPackBytes < pack.size))
    (hread : readArchiveEntries pack = .ok entries)
    (hmanifest : entries.lookup themeManifestName = some manifest)
    (hparse : reader.theme manifest = .ok theme) (hvalid : theme.validate = .ok ())
    (hfree : isReservedThemeId theme.id = false)
    (hcontents : verifyContents reader theme entries = .ok ()) :
    validatePackBytes reader pack = .ok ⟨theme, true, false, "sound pack passed validation"⟩ := by
  unfold validatePackBytes
  rw [if_neg hsize, hread]
  simp only [bind, Except.bind, hmanifest, parseThemeManifest, hparse, hvalid, Except.mapError,
    rejectReservedTheme, hfree, Bool.false_eq_true, if_false, hcontents]
  rfl

/-- The pack is valid if its theme is and has an id that is not reserved. -/
theorem validate_sample {size : ℕ} (hsize : ¬ (size = 0 ∨ maxPackBytes < size))
    (hread : readArchiveEntries (samplePack size themeId themeHash) =
      .ok (sampleEntries themeId themeHash)) (hvalid : (sampleTheme themeId).validate = .ok ())
    (hfree : isReservedThemeId themeId = false) (hother : sampleThemeJson themeId ≠ sampleSound) :
    validatePackBytes (sampleReader themeId themeHash) (samplePack size themeId themeHash) =
      .ok ⟨sampleTheme themeId, true, false, "sound pack passed validation"⟩ := by
  have hmanifest : (sampleEntries themeId themeHash).lookup themeManifestName =
      some (sampleThemeJson themeId) := by
    simp [sampleEntries, themeManifestName, List.lookup_cons]
  have hintegrity : (sampleEntries themeId themeHash).lookup integrityManifestName =
      some (sampleIntegrityJson themeHash) := by
    simp [sampleEntries, integrityManifestName]
  have hentry : (sampleEntries themeId themeHash).lookup "sounds/completed.wav" =
      some sampleSound := by
    simp [sampleEntries, List.lookup_cons]
  have hparse : parseIntegrityManifest (sampleReader themeId themeHash)
      (sampleIntegrityJson themeHash) = .ok ⟨1, "sha256",
        [("sounds/completed.wav", sampleSoundHash), ("theme.json", themeHash)], none⟩ := by
    simp [parseIntegrityManifest, sampleReader, packSchemaVersion]
  have hdeclared : [("sounds/completed.wav", sampleSoundHash), ("theme.json", themeHash)].mapM
      (verifyFile (sampleReader themeId themeHash) (sampleEntries themeId themeHash)) =
        .ok ["sounds/completed.wav", "theme.json"] := by
    rw [List.mapM_cons, verifyFile_sampleSound, List.mapM_cons,
      verifyFile_sampleTheme themeHash hother]
    rfl
  have hverify : verifyIntegrity (sampleReader themeId themeHash) ⟨1, "sha256", _, none⟩ _ = _ :=
    verifyIntegrity_ok hdeclared (by simp [sampleEntries, integrityManifestName])
  refine validatePackBytes_ok hsize hread hmanifest (if_pos rfl) hvalid hfree
    (verifyContents_ok hintegrity hparse rfl hverify ?_)
  simp [verifyThemeAssetsPresent, sampleTheme, verifyAsset, hentry, sampleSound]

theorem sampleTree_closed : Tree.Closed sampleTree := by
  have hall : ∀ l ∈ [["/"], ["/", "data"], ["/", "data", "themes"]], ∀ above ∈ l.inits,
      above ≠ [] → sampleTree above = some .dir := by decide
  intro above l hl habove _ hne
  have hmem : l ∈ [["/"], ["/", "data"], ["/", "data", "themes"]] := by
    by_contra hnot
    rw [sampleTree, if_neg hnot] at hl
    cases hl
  exact hall l hmem above ((List.mem_inits above l).2 habove) hne

/-- What the libraries make of a pack of this kind, and what its theme passes. -/
structure SampleFacts (themeId themeHash : String) : Prop where
  integrity : 0 < (sampleIntegrityJson themeHash).length ∧
    (sampleIntegrityJson themeHash).length ≤ 1000
  theme : 0 < (sampleThemeJson themeId).length ∧ (sampleThemeJson themeId).length ≤ 1000
  other : sampleThemeJson themeId ≠ sampleSound
  valid : (sampleTheme themeId).validate = .ok ()
  free : isReservedThemeId themeId = false

theorem sampleFacts : SampleFacts "../escape" escapingHash ∧
    SampleFacts "community.test-pack" packHash := by
  constructor <;>
  exact ⟨by decide +kernel, by decide +kernel, by decide, by decide,
    by decide⟩

theorem SampleFacts.read (h : SampleFacts themeId themeHash) (size : ℕ) :
    readArchiveEntries (samplePack size themeId themeHash) =
      .ok (sampleEntries themeId themeHash) :=
  readArchiveEntries_sample size h.integrity h.theme

theorem SampleFacts.validates (h : SampleFacts themeId themeHash) {size : ℕ}
    (hsize : ¬ (size = 0 ∨ maxPackBytes < size)) :
    validatePackBytes (sampleReader themeId themeHash) (samplePack size themeId themeHash) =
      .ok ⟨sampleTheme themeId, true, false, "sound pack passed validation"⟩ :=
  validate_sample hsize (h.read size) h.valid h.free h.other

theorem escaping_run :
    succeedsWith (sampleInstall 726 "../escape" escapingHash) ⟨sampleTree, [], []⟩
      (fun d => .file ["/", "data", "escape", "theme.json"] ∈ d.touched) = true := by
  rw [sampleInstall, validateAndInstallPackBytes, sampleFacts.1.read 726,
    sampleFacts.1.validates (by decide)]
  decide +kernel

/-- An id that leads up : the pack is installed next to the themes root. -/
theorem escaping_pack_leaves_box :
    let call := sampleInstall 726 "../escape" escapingHash
    Tree.Closed sampleTree ∧ (∃ v d', call ⟨sampleTree, [], []⟩ = .ok v d') ∧
      .file ["/", "data", "escape", "theme.json"] ∈ touchedBy call ⟨sampleTree, [], []⟩ ∧
      ¬ InBox sampleTree (sampleProcess.locate sampleRoot)
        (.file ["/", "data", "escape", "theme.json"]) := by
  obtain ⟨v, d, hok, hfile⟩ := exists_ok_of_succeedsWith escaping_run
  refine ⟨sampleTree_closed, ⟨v, d, hok⟩, ?_, ?_⟩
  · rw [touchedBy, hok]
    exact of_decide_eq_true hfile
  · rintro ⟨name, -, hpre⟩
    have hlocate : sampleProcess.locate sampleRoot = ["/", "data", "themes"] := by decide +kernel
    rw [hlocate] at hpre
    have hlength := hpre.length_le
    simp at hlength

theorem read_sample : readArchiveEntries (samplePack 736 "community.test-pack" packHash) =
    .ok (sampleEntries "community.test-pack" packHash) :=
  sampleFacts.2.read 736

theorem sample_validation :
    validatePackBytes (sampleReader "community.test-pack" packHash)
      (samplePack 736 "community.test-pack" packHash) =
        .ok ⟨sampleTheme "community.test-pack", true, false, "sound pack passed validation"⟩ :=
  sampleFacts.2.validates (by decide)

theorem sample_run :
    succeedsWith (sampleInstall 736 "community.test-pack" packHash) ⟨sampleTree, [], []⟩
      (fun _ => true) = true := by
  rw [sampleInstall, validateAndInstallPackBytes, read_sample, sample_validation]
  decide +kernel

theorem pack_in_box_sample :
    let call := sampleInstall 736 "community.test-pack" packHash
    (∃ v d', call ⟨sampleTree, [], []⟩ = .ok v d') ∧
      ∀ t ∈ touchedBy call ⟨sampleTree, [], []⟩,
        InBox sampleTree (sampleProcess.locate sampleRoot) t := by
  have hbox := pack_in_box sampleProcess .unix (sampleReader "community.test-pack" packHash)
    (samplePack 736 "community.test-pack" packHash) sampleRoot reservedThemeIds sampleTree []
  obtain ⟨v, d, hrun, -⟩ := exists_ok_of_succeedsWith sample_run
  have hok : ∃ v d', sampleInstall 736 "community.test-pack" packHash ⟨sampleTree, [], []⟩ =
      .ok v d' := ⟨v, d, hrun⟩
  refine ⟨hok, (hbox.2 hok).2 fun v hv => Or.inr ?_⟩
  obtain rfl := Except.ok.inj (sample_validation.symm.trans hv)
  exact lands_of_validateThemeId (by decide +kernel) (by decide) (by decide +kernel)

end Sample

end SoundPack

end LlmNotch
