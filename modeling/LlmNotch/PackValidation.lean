import LlmNotch.SoundPacks

/-!
# Which sound packs are accepted

A pack within the limits is a list of entries (`PackFile`), each a name, whether it is a
directory, and bytes. `Intact` says what a good one is without the order of the checks : names
that cannot lead anywhere else, files with something in them under different names, a theme
that can be played with a sound for each of its events, and an integrity manifest of exactly
the other files.

An archive lists the directory `sounds` as `sounds/`. The text after the last slash is empty,
and the check of the names comes before directories are passed over, so
`validatePackBytes` refuses a pack with such an entry. It also accepts a manifest with a line
for itself. `accepts_intact_iff` : apart from these two kinds of packs, exactly the intact
ones are accepted.
-/

namespace LlmNotch

namespace SoundPack

/-! ## Paths -/

/-- A relative path with a name between any two slashes. -/
structure SafePath (text : List Char) : Prop where
  noDrive : ¬ hasDrivePrefix text = true
  names : ∀ part ∈ text.splitOn '/', part ≠ [] ∧ part ≠ ['.'] ∧ part ≠ ['.', '.']

def normalizedName (raw : String) : String := String.ofList (forwardSlashes raw)

theorem isDotPart_eq_false {part : List Char} :
    isDotPart part = false ↔ part ≠ [] ∧ part ≠ ['.'] ∧ part ≠ ['.', '.'] := by
  simp [isDotPart, and_assoc]

theorem any_isDotPart {parts : List (List Char)} :
    parts.any isDotPart = false ↔
      ∀ part ∈ parts, part ≠ [] ∧ part ≠ ['.'] ∧ part ≠ ['.', '.'] := by
  rw [List.any_eq_false]
  exact forall₂_congr fun part _ => by rw [← isDotPart_eq_false, Bool.not_eq_true]

variable {text extension : List Char} {file : PackFile} {result entries : PackEntries × ℕ}
  {bytes : List UInt8}

theorem SafePath.relative (h : SafePath text) : text ≠ [] ∧ text.head? ≠ some '/' := by
  cases text with
  | nil => exact absurd rfl (h.names [] (by simp)).1
  | cons c text =>
    refine ⟨List.cons_ne_nil _ _, fun hc => ?_⟩
    cases hc
    have hfirst : [] ∈ ('/' :: text).splitOn '/' := by
      rw [List.splitOn_eq_splitOnP, List.splitOnP_cons_eq_if_modifyHead, if_pos (by simp)]
      exact List.mem_cons_self
    exact (h.names [] hfirst).1 rfl

/-- What both checks of a path have in common. -/
theorem safePath_iff :
    SafePath text ↔ (text.isEmpty || text.head? = some '/' || hasDrivePrefix text) = false ∧
      (text.splitOn '/').any isDotPart = false := by
  rw [any_isDotPart]
  constructor
  · intro h
    obtain ⟨hne, hroot⟩ := h.relative
    refine ⟨?_, h.names⟩
    simp [hne, hroot, Bool.not_eq_true _ ▸ h.noDrive]
  · rintro ⟨hstart, hnames⟩
    simp only [Bool.or_eq_false_iff] at hstart
    exact ⟨by simp [hstart.2], hnames⟩

theorem normalizeArchivePath_eq_ok {raw name : String} :
    normalizeArchivePath raw = .ok name ↔
      SafePath (forwardSlashes raw) ∧ name = normalizedName raw := by
  unfold normalizeArchivePath
  dsimp only
  rw [List.intercalate_splitOn, safePath_iff]
  split
  · rename_i hstart
    simp [hstart]
  · rename_i hstart
    split
    · rename_i hparts
      simp [hparts]
    · rename_i hparts
      simp only [Bool.not_eq_true] at hstart hparts
      simp only [hstart, hparts, and_self, true_and, Except.ok.injEq]
      exact eq_comm

theorem forwardSlashes_eq_of_normalizedName {a b : String}
    (h : normalizedName a = normalizedName b) : forwardSlashes a = forwardSlashes b :=
  String.ofList_injective h

/-! ## Entries -/

/-- An entry of an archive. -/
structure PackFile where
  name : String
  isDir : Bool
  bytes : List UInt8

def PackFile.path (file : PackFile) : String := normalizedName file.name

/-- A directory entry as archives have them, with a slash at the end. -/
def PackFile.EndsInSlash (file : PackFile) : Prop :=
  file.isDir = true ∧ ∃ text, forwardSlashes file.name = text ++ ['/']

/-- The name cannot lead out; the slash at the end of a directory does no harm. -/
def PackFile.Safe (file : PackFile) : Prop :=
  SafePath (forwardSlashes file.name) ∨
    file.isDir = true ∧ ∃ text, forwardSlashes file.name = text ++ ['/'] ∧ SafePath text

def regularFiles (files : List PackFile) : List PackFile :=
  files.filter fun file => !file.isDir

def PackFile.entry (file : PackFile) : ZipFile := ⟨file.name, file.isDir, .ok file.bytes⟩

/-- The bytes of an archive with the files, `size` of them. -/
def packOf (size : ℕ) (files : List PackFile) : PackBytes :=
  ⟨size, .ok (files.map fun file => .ok file.entry)⟩

def unpackedSize (files : List PackFile) : ℕ :=
  ((regularFiles files).map fun file => file.bytes.length).sum

structure WithinLimits (size : ℕ) (files : List PackFile) : Prop where
  nonempty : size ≠ 0
  packed : size ≤ maxPackBytes
  entries : files.length ≤ maxPackEntries
  unpacked : unpackedSize files ≤ maxPackBytes

/-- The map that is read from an archive. -/
def contents (files : List PackFile) : PackEntries :=
  (regularFiles files).map fun file => (file.path, file.bytes)

/-- The part after the last slash is empty. -/
theorem not_safePath_slash (text : List Char) : ¬ SafePath (text ++ ['/']) := by
  intro h
  have hlast : [] ∈ (text ++ ['/']).splitOn '/' := by
    rw [List.splitOn_append_cons_self, List.splitOn_nil]
    exact List.mem_append_right _ List.mem_cons_self
  exact (h.names [] hlast).1 rfl

/-- The checks of the names are those of safe ones, but for a slash at the end. -/
theorem PackFile.safe_iff (h : ¬ file.EndsInSlash) :
    file.Safe ↔ SafePath (forwardSlashes file.name) := by
  refine ⟨fun hsafe => hsafe.resolve_right ?_, Or.inl⟩
  rintro ⟨hdir, text, htext, -⟩
  exact h ⟨hdir, text, htext⟩

/-- What has to hold of the file for its contents to be read. -/
structure PackFile.Readable (file : PackFile) : Prop where
  nonempty : file.bytes ≠ []
  bounded : file.bytes.length ≤ maxAssetBytes

theorem addEntry_directory (hdir : file.isDir = true) :
    addEntry entries (.ok file.entry) = .ok result ↔
      SafePath (forwardSlashes file.name) ∧ result = entries := by
  show (normalizeArchivePath file.name >>= fun normalized =>
    if (file.isDir || normalized.isEmpty) = true then pure entries else _) = .ok result ↔ _
  rw [bind_eq_ok]
  simp only [hdir, Bool.true_or, if_true]
  constructor
  · rintro ⟨normalized, hname, hpure⟩
    exact ⟨(normalizeArchivePath_eq_ok.1 hname).1, (Except.ok.inj hpure).symm⟩
  · rintro ⟨hsafe, rfl⟩
    exact ⟨_, normalizeArchivePath_eq_ok.2 ⟨hsafe, rfl⟩, rfl⟩

theorem normalizedName_ne_empty {raw : String} (h : SafePath (forwardSlashes raw)) :
    (normalizedName raw).isEmpty = false := by
  rw [Bool.eq_false_iff, ne_eq, String.isEmpty_iff]
  intro hempty
  refine h.relative.1 ?_
  exact String.ofList_injective (hempty.trans (by decide))

theorem addEntry_regular (hdir : file.isDir = false) :
    addEntry entries (.ok file.entry) = .ok result ↔
      SafePath (forwardSlashes file.name) ∧ file.Readable ∧
        entries.2 + file.bytes.length ≤ maxPackBytes ∧ file.path ∉ entries.1.map Prod.fst ∧
        result = (entries.1 ++ [(file.path, file.bytes)], entries.2 + file.bytes.length) := by
  have hmax : maxPackBytes < 2 ^ 64 := by decide
  show (normalizeArchivePath file.name >>= fun normalized =>
    if (file.isDir || normalized.isEmpty) = true then pure entries
    else (Except.ok file.bytes : Except SoundPackError _) >>= fun bytes => _) = .ok result ↔ _
  rw [bind_eq_ok]
  simp only [hdir, Bool.false_or]
  constructor
  · rintro ⟨normalized, hname, h⟩
    obtain ⟨hsafe, rfl⟩ := normalizeArchivePath_eq_ok.1 hname
    rw [if_neg (by simp [normalizedName_ne_empty hsafe])] at h
    obtain ⟨bytes, hread, h⟩ := bind_eq_ok.1 h
    cases hread
    split at h
    · cases h
    rename_i hne
    split at h
    · cases h
    rename_i hbounded
    split at h
    · cases h
    split at h
    · cases h
    rename_i htotal
    split at h
    · cases h
    rename_i hnew
    exact ⟨hsafe, ⟨hne, not_lt.1 hbounded⟩, not_lt.1 htotal,
      by simpa [PackFile.path] using hnew, (Except.ok.inj h).symm⟩
  · rintro ⟨hsafe, hreadable, htotal, hnew, rfl⟩
    refine ⟨_, normalizeArchivePath_eq_ok.2 ⟨hsafe, rfl⟩, ?_⟩
    rw [if_neg (by simp [normalizedName_ne_empty hsafe])]
    refine bind_eq_ok.2 ⟨file.bytes, rfl, ?_⟩
    rw [if_neg hreadable.nonempty, if_neg (not_lt.2 hreadable.bounded), if_neg (by omega),
      if_neg (not_lt.2 htotal), if_neg (by simpa [PackFile.path] using hnew)]
    rfl

theorem nodup_keys_concat {entries : PackEntries} {path : String} (bytes : List UInt8)
    (hnodup : (entries.map Prod.fst).Nodup) (hnew : path ∉ entries.map Prod.fst) :
    ((entries ++ [(path, bytes)]).map Prod.fst).Nodup := by
  rw [List.map_append, List.map_singleton, ← List.concat_eq_append]
  exact hnodup.concat hnew

theorem foldlM_addEntry {files : List PackFile} (hnodup : (entries.1.map Prod.fst).Nodup)
    (hmax : entries.2 ≤ maxPackBytes) :
    (files.map fun file => Except.ok file.entry).foldlM addEntry entries = .ok result ↔
      (∀ file ∈ files, SafePath (forwardSlashes file.name)) ∧
        (∀ file ∈ regularFiles files, file.Readable) ∧
        entries.2 + unpackedSize files ≤ maxPackBytes ∧
        (entries.1.map Prod.fst ++ (regularFiles files).map PackFile.path).Nodup ∧
        result = (entries.1 ++ contents files, entries.2 + unpackedSize files) := by
  induction files generalizing entries with
  | nil =>
    show Except.ok entries = _ ↔ _
    simp [regularFiles, contents, unpackedSize, hnodup, hmax, eq_comm]
  | cons file files ih =>
    rw [List.map_cons, List.foldlM_cons, bind_eq_ok]
    cases hdir : file.isDir with
    | true =>
      have hregular : regularFiles (file :: files) = regularFiles files := by
        simp [regularFiles, hdir]
      simp only [addEntry_directory hdir, contents, unpackedSize, hregular, List.forall_mem_cons]
      constructor
      · rintro ⟨_, ⟨hsafe, rfl⟩, h⟩
        obtain ⟨hall, hrest⟩ := (ih hnodup hmax).1 h
        exact ⟨⟨hsafe, hall⟩, hrest⟩
      · rintro ⟨⟨hsafe, hall⟩, hrest⟩
        exact ⟨_, ⟨hsafe, rfl⟩, (ih hnodup hmax).2 ⟨hall, hrest⟩⟩
    | false =>
      have hregular : regularFiles (file :: files) = file :: regularFiles files := by
        simp [regularFiles, hdir]
      simp only [addEntry_regular hdir, contents, unpackedSize, hregular, List.forall_mem_cons,
        List.map_cons, List.sum_cons]
      constructor
      · rintro ⟨_, ⟨hsafe, hreadable, htotal, hnew, rfl⟩, h⟩
        have hnodup' := nodup_keys_concat file.bytes hnodup hnew
        obtain ⟨hall, hread, hsize, hpaths, rfl⟩ := (ih hnodup' htotal).1 h
        refine ⟨⟨hsafe, hall⟩, ⟨hreadable, hread⟩, ?_, ?_, ?_⟩
        · simpa [unpackedSize, add_assoc] using hsize
        · simpa using hpaths
        · simp [contents, unpackedSize, add_assoc]
      · rintro ⟨⟨hsafe, hall⟩, ⟨hreadable, hread⟩, hsize, hpaths, rfl⟩
        have hnew : file.path ∉ entries.1.map Prod.fst := fun hmem =>
          (List.nodup_append.1 hpaths).2.2 _ hmem _ List.mem_cons_self rfl
        have hnodup' := nodup_keys_concat file.bytes hnodup hnew
        have htotal : entries.2 + file.bytes.length ≤ maxPackBytes := by omega
        refine ⟨_, ⟨hsafe, hreadable, htotal, hnew, rfl⟩, (ih hnodup' htotal).2
          ⟨hall, hread, ?_, ?_, ?_⟩⟩
        · simpa [unpackedSize, add_assoc] using hsize
        · simpa using hpaths
        · simp [contents, unpackedSize, add_assoc]

/-- What an archive has to look like to be read. -/
structure Unpacks (files : List PackFile) : Prop where
  safe : ∀ file ∈ files, SafePath (forwardSlashes file.name)
  readable : ∀ file ∈ regularFiles files, file.Readable
  distinct : ((regularFiles files).map PackFile.path).Nodup

theorem readArchiveEntries_packOf {size : ℕ} {files : List PackFile}
    (hlimits : WithinLimits size files) {entries : PackEntries} :
    readArchiveEntries (packOf size files) = .ok entries ↔
      Unpacks files ∧ entries = contents files := by
  show ((Except.ok _ : Except SoundPackError _) >>= fun archive => _) = _ ↔ _
  rw [bind_eq_ok]
  have hlength : ¬ maxPackEntries < (files.map fun file =>
      (Except.ok file.entry : Except String ZipFile)).length := by
    rw [List.length_map]
    exact not_lt.2 hlimits.entries
  constructor
  · rintro ⟨archive, harchive, h⟩
    cases harchive
    rw [if_neg hlength] at h
    obtain ⟨result, hfold, hpure⟩ := bind_eq_ok.1 h
    obtain ⟨hsafe, hreadable, -, hdistinct, rfl⟩ :=
      (foldlM_addEntry (by simp) (Nat.zero_le _)).1 hfold
    exact ⟨⟨hsafe, hreadable, by simpa using hdistinct⟩, by simpa using (Except.ok.inj hpure).symm⟩
  · rintro ⟨hunpacks, rfl⟩
    refine ⟨_, rfl, ?_⟩
    rw [if_neg hlength]
    refine bind_eq_ok.2 ⟨([] ++ contents files, 0 + unpackedSize files),
      (foldlM_addEntry (by simp) (Nat.zero_le _)).2 ?_, rfl⟩
    exact ⟨hunpacks.safe, hunpacks.readable, by simpa using hlimits.unpacked,
      by simpa using hunpacks.distinct, rfl⟩

/-- The pack has a file with the contents under the path. -/
def HasFile (files : List PackFile) (path : String) (bytes : List UInt8) : Prop :=
  ∃ file ∈ regularFiles files, file.path = path ∧ file.bytes = bytes

theorem mem_contents {files : List PackFile} {path : String} :
    (path, bytes) ∈ contents files ↔ HasFile files path bytes := by
  simp [contents, HasFile, Prod.ext_iff]

theorem lookup_eq_some_of_nodup {entries : PackEntries} (h : (entries.map Prod.fst).Nodup)
    {path : String} : entries.lookup path = some bytes ↔ (path, bytes) ∈ entries := by
  induction entries with
  | nil => simp
  | cons entry entries ih =>
    obtain ⟨key, value⟩ := entry
    obtain ⟨hnew, hrest⟩ := List.nodup_cons.1 h
    rw [List.lookup_cons, List.mem_cons, Prod.mk.injEq]
    by_cases hkey : path = key
    · subst hkey
      have hnot : (path, bytes) ∉ entries := fun hmem =>
        hnew (List.mem_map.2 ⟨_, hmem, rfl⟩)
      simp [hnot, eq_comm]
    · rw [show (path == key) = false by simpa using hkey]
      simpa [hkey] using ih hrest

theorem lookup_contents {files : List PackFile} (h : Unpacks files) {path : String} :
    (contents files).lookup path = some bytes ↔ HasFile files path bytes := by
  rw [← mem_contents]
  refine lookup_eq_some_of_nodup ?_
  rw [contents, List.map_map]
  exact h.distinct

/-! ## Themes -/

/-- The file name ends in `.wav` or `.ogg`. -/
def IsSound (path : List Char) : Prop :=
  ∃ stem extension, path = stem ++ '.' :: extension ∧
    (extension.map RustText.toAsciiLowercase = "wav".toList ∨
      extension.map RustText.toAsciiLowercase = "ogg".toList)

structure ValidAsset (asset : SoundAsset) : Prop where
  safe : SafePath (forwardSlashes asset.path)
  printable : ∀ c ∈ forwardSlashes asset.path, ¬ isControl c = true
  sound : IsSound (forwardSlashes asset.path)
  size : 0 < asset.sizeBytes ∧ asset.sizeBytes ≤ maxAssetBytes
  duration : 0 < asset.durationMs ∧ asset.durationMs ≤ maxDurationMs

def SoundTheme.assets (theme : SoundTheme) : List SoundAsset := theme.events.map Prod.snd

/-- A theme that can be played. -/
structure ValidTheme (theme : SoundTheme) : Prop where
  schema : theme.schemaVersion = 1
  id : RustText.trim theme.id.toList ≠ []
  name : RustText.trim theme.name.toList ≠ []
  events : theme.events ≠ []
  assets : ∀ asset ∈ theme.assets, ValidAsset asset
  distinct : (theme.assets.map fun asset => RustText.asciiLowercase asset.path).Nodup
  total : (theme.assets.map SoundAsset.sizeBytes).sum ≤ maxThemeBytes

theorem extension_eq (hlower : '.' ∉ extension) (stem : List Char)
    (htext : text = stem ++ '.' :: extension) :
    (text.reverse.takeWhile (· ≠ '.')).reverse = extension := by
  subst htext
  rw [List.reverse_append, List.reverse_cons, List.append_assoc,
    List.takeWhile_append_of_pos fun c hc => ?_]
  · simp
  · have hne : c ≠ '.' := fun he => hlower (he ▸ List.mem_reverse.1 hc)
    simpa using hne

theorem dot_not_mem_of_lowercase {lower : List Char}
    (h : extension.map RustText.toAsciiLowercase = lower) (hdot : '.' ∉ lower) :
    '.' ∉ extension := by
  intro hmem
  refine hdot (h ▸ List.mem_map.2 ⟨'.', hmem, by decide⟩)

theorem isSound_iff :
    IsSound text ↔ '.' ∈ text ∧
      ((text.reverse.takeWhile (· ≠ '.')).reverse.map RustText.toAsciiLowercase = "wav".toList ∨
        (text.reverse.takeWhile (· ≠ '.')).reverse.map RustText.toAsciiLowercase =
          "ogg".toList) := by
  constructor
  · rintro ⟨stem, extension, htext, hext⟩
    have hdot : '.' ∉ extension := hext.elim
      (fun h => dot_not_mem_of_lowercase h (by decide))
      fun h => dot_not_mem_of_lowercase h (by decide)
    rw [extension_eq hdot stem htext]
    exact ⟨by simp [htext], hext⟩
  · rintro ⟨hmem, hext⟩
    obtain ⟨after, before, hreverse, hdot⟩ :=
      List.eq_append_cons_of_mem (List.mem_reverse.2 hmem)
    have htext : text = before.reverse ++ '.' :: after.reverse := by
      rw [← List.reverse_reverse text, hreverse]
      simp
    rw [extension_eq (by simpa using hdot) _ htext] at hext
    exact ⟨_, _, htext, hext⟩

theorem validateAssetPath_eq_ok {path : String} :
    validateAssetPath path = .ok () ↔ SafePath (forwardSlashes path) ∧
      (∀ c ∈ forwardSlashes path, ¬ isControl c = true) ∧ IsSound (forwardSlashes path) := by
  unfold validateAssetPath
  dsimp only
  rw [safePath_iff, isSound_iff]
  generalize forwardSlashes path = text
  have hcontrol : text.any isControl = false ↔ ∀ c ∈ text, ¬ isControl c = true :=
    List.any_eq_false
  rw [← hcontrol]
  cases hstart : text.isEmpty || decide (text.head? = some '/') || hasDrivePrefix text with
  | true => simp
  | false =>
    cases hprint : text.any isControl with
    | true => simp
    | false =>
      cases hparts : (text.splitOn '/').any isDotPart with
      | true => simp
      | false =>
        simp only [Bool.or_self, Bool.false_eq_true, if_false, true_and]
        by_cases hdot : '.' ∈ text
        · simp only [List.contains_iff_mem, hdot, if_true, Option.some.injEq, true_and]
          split <;> simp_all
        · simp [hdot]

theorem validateAsset_eq_ok {seen : List String} {total : ℕ} {asset : SoundAsset}
    {result : List String × ℕ} :
    validateAsset (seen, total) asset = .ok result ↔ ValidAsset asset ∧
      RustText.asciiLowercase asset.path ∉ seen ∧ total + asset.sizeBytes < 2 ^ 64 ∧
      result = (RustText.asciiLowercase asset.path :: seen, total + asset.sizeBytes) := by
  unfold validateAsset
  rw [bind_eq_ok]
  constructor
  · rintro ⟨⟨⟩, hpath, h⟩
    obtain ⟨hsafe, hprintable, hsound⟩ := validateAssetPath_eq_ok.1 hpath
    split at h
    · cases h
    rename_i hnew
    split at h
    · cases h
    rename_i hsize
    split at h
    · cases h
    rename_i hduration
    split at h
    · cases h
    rename_i htotal
    exact ⟨⟨hsafe, hprintable, hsound, by omega, by omega⟩, hnew, not_le.1 htotal,
      (Except.ok.inj h).symm⟩
  · rintro ⟨⟨hsafe, hprintable, hsound, hsize, hduration⟩, hnew, htotal, rfl⟩
    refine ⟨(), validateAssetPath_eq_ok.2 ⟨hsafe, hprintable, hsound⟩, ?_⟩
    rw [if_neg hnew, if_neg (by omega), if_neg (by omega), if_neg (not_le.2 htotal)]
    rfl

theorem foldlM_validateAsset {assets : List SoundAsset} {seen : List String} {total : ℕ}
    (htotal : total < 2 ^ 64) {n : ℕ} :
    (∃ seen', assets.foldlM validateAsset (seen, total) = .ok (seen', n)) ↔
      (∀ asset ∈ assets, ValidAsset asset) ∧
        (assets.map fun asset => RustText.asciiLowercase asset.path).Nodup ∧
        (∀ asset ∈ assets, RustText.asciiLowercase asset.path ∉ seen) ∧
        total + (assets.map SoundAsset.sizeBytes).sum < 2 ^ 64 ∧
        n = total + (assets.map SoundAsset.sizeBytes).sum := by
  induction assets generalizing seen total with
  | nil =>
    show (∃ seen', Except.ok (seen, total) = _) ↔ _
    simpa [eq_comm] using fun _ => htotal
  | cons asset assets ih =>
    simp only [List.foldlM_cons, bind_eq_ok, List.forall_mem_cons, List.map_cons, List.sum_cons,
      List.nodup_cons, List.mem_map, not_exists, not_and]
    constructor
    · rintro ⟨seen', ⟨_, _⟩, hasset, h⟩
      obtain ⟨hvalid, hnew, hlt, heq⟩ := validateAsset_eq_ok.1 hasset
      obtain ⟨rfl, rfl⟩ := Prod.mk.inj heq
      obtain ⟨hall, hdistinct, hfresh, hsum, hn⟩ := (ih hlt).1 ⟨seen', h⟩
      refine ⟨⟨hvalid, hall⟩, ⟨fun other hother he => ?_, hdistinct⟩,
        ⟨hnew, fun other hother hmem => ?_⟩, by omega, by omega⟩
      · exact hfresh other hother (he ▸ List.mem_cons_self)
      · exact hfresh other hother (List.mem_cons_of_mem _ hmem)
    · rintro ⟨⟨hvalid, hall⟩, ⟨hhead, hdistinct⟩, ⟨hnew, hfresh⟩, hsum, hn⟩
      have hlt : total + asset.sizeBytes < 2 ^ 64 := by omega
      have hfresh' : ∀ other ∈ assets,
          RustText.asciiLowercase other.path ∉ RustText.asciiLowercase asset.path :: seen :=
        fun other hother =>
          List.not_mem_cons_of_ne_of_not_mem (hhead other hother) (hfresh other hother)
      obtain ⟨seen', h⟩ := (ih hlt).2 ⟨hall, hdistinct, hfresh', by omega, by omega⟩
      exact ⟨seen', _, validateAsset_eq_ok.2 ⟨hvalid, hnew, hlt, rfl⟩, h⟩

theorem validate_eq_ok {theme : SoundTheme} : theme.validate = .ok () ↔ ValidTheme theme := by
  have hmax : maxThemeBytes < 2 ^ 64 := by decide
  unfold SoundTheme.validate
  constructor
  · intro h
    split at h
    · cases h
    rename_i hschema
    split at h
    · cases h
    rename_i hnames
    split at h
    · cases h
    rename_i hevents
    obtain ⟨⟨seen, total⟩, hfold, h⟩ := bind_eq_ok.1 h
    obtain ⟨hall, hdistinct, -, -, htotal⟩ :=
      (foldlM_validateAsset (by decide)).1 ⟨seen, hfold⟩
    dsimp only at h
    split at h
    · cases h
    rename_i hsize
    rw [htotal, Nat.zero_add] at hsize
    exact ⟨not_not.1 hschema, fun he => hnames (.inl he), fun he => hnames (.inr he), hevents,
      hall, hdistinct, not_lt.1 hsize⟩
  · intro h
    have hsum := h.total
    have hfold : ∃ seen, theme.assets.foldlM validateAsset ([], 0) =
        .ok (seen, (theme.assets.map SoundAsset.sizeBytes).sum) :=
      (foldlM_validateAsset (by decide)).2
        ⟨h.assets, h.distinct, by simp, by omega, (Nat.zero_add _).symm⟩
    obtain ⟨seen, hfold⟩ := hfold
    rw [if_neg (not_not.2 h.schema), if_neg (not_or.2 ⟨h.id, h.name⟩), if_neg h.events]
    exact bind_eq_ok.2 ⟨_, hfold, if_neg (not_lt.2 hsum)⟩

/-! ## The integrity manifest -/

section Manifest

variable (reader : Reader)

/-- The manifest has the name of the file and its hash. -/
structure Declares (integrity : SoundPackIntegrity) (files : List PackFile)
    (listed : String → Prop) : Prop where
  names : ∀ path, (∃ line ∈ integrity.files, normalizedName line.1 = path) ↔
    (∃ bytes, HasFile files path bytes) ∧ listed path
  hashes : ∀ line ∈ integrity.files, ∀ bytes, HasFile files (normalizedName line.1) bytes →
    eqIgnoreAsciiCase line.2 (reader.sha256Hex bytes) = true

variable {reader} {files : List PackFile}

theorem verifyFile_eq_ok (h : Unpacks files) {line : String × String} {name : String} :
    verifyFile reader (contents files) line = .ok name ↔
      (∃ bytes, HasFile files (normalizedName line.1) bytes ∧
        eqIgnoreAsciiCase line.2 (reader.sha256Hex bytes) = true) ∧
      name = normalizedName line.1 := by
  unfold verifyFile
  rw [bind_eq_ok]
  constructor
  · rintro ⟨normalized, hname, hrun⟩
    obtain ⟨-, rfl⟩ := normalizeArchivePath_eq_ok.1 hname
    cases hlookup : (contents files).lookup (normalizedName line.1) with
    | none =>
      rw [hlookup] at hrun
      cases hrun
    | some bytes =>
      simp only [hlookup] at hrun
      split at hrun
      · rename_i hhash
        exact ⟨⟨bytes, (lookup_contents h).1 hlookup, hhash⟩, (Except.ok.inj hrun).symm⟩
      · cases hrun
  · rintro ⟨⟨bytes, hfile, hhash⟩, rfl⟩
    obtain ⟨file, hmem, hpath, -⟩ := id hfile
    have hsafe : SafePath (forwardSlashes line.1) := by
      rw [← forwardSlashes_eq_of_normalizedName hpath]
      exact h.safe file (List.mem_of_mem_filter hmem)
    refine ⟨_, normalizeArchivePath_eq_ok.2 ⟨hsafe, rfl⟩, ?_⟩
    simp only [(lookup_contents h).2 hfile, hhash, if_true]
    rfl

variable {bytes : List UInt8} {integrity : SoundPackIntegrity} {theme : SoundTheme}

theorem HasFile.unique (h : Unpacks files) {path : String} {bytes' : List UInt8}
    (hfile : HasFile files path bytes) (hfile' : HasFile files path bytes') : bytes = bytes' :=
  Option.some.inj (((lookup_contents h).2 hfile).symm.trans ((lookup_contents h).2 hfile'))

/-- Every line of the manifest is met by a file, and every other file has a line. -/
theorem verifyIntegrity_eq_ok (h : Unpacks files) :
    verifyIntegrity reader integrity (contents files) = .ok () ↔
      (∀ line ∈ integrity.files, ∃ bytes, HasFile files (normalizedName line.1) bytes ∧
        eqIgnoreAsciiCase line.2 (reader.sha256Hex bytes) = true) ∧
      ∀ path bytes, HasFile files path bytes → path ≠ integrityManifestName →
        ∃ line ∈ integrity.files, normalizedName line.1 = path := by
  have hcovered : ∀ declared : List String,
      (contents files).sorted.find? (fun e => e.1 ≠ integrityManifestName &&
        !declared.contains e.1) = none ↔
      ∀ path bytes, HasFile files path bytes → path ≠ integrityManifestName →
        path ∈ declared := by
    intro declared
    rw [List.find?_eq_none]
    simp only [PackEntries.sorted, (List.perm_insertionSort _ _).mem_iff, Prod.forall,
      mem_contents]
    simp
  unfold verifyIntegrity
  rw [bind_eq_ok]
  constructor
  · rintro ⟨declared, hlines, hrun⟩
    obtain ⟨hall, rfl⟩ := (mapM_eq_ok fun _ _ => verifyFile_eq_ok h).1 hlines
    refine ⟨hall, fun path bytes hfile hother => ?_⟩
    split at hrun
    · cases hrun
    · rename_i hfind
      exact List.mem_map.1 ((hcovered _).1 hfind path bytes hfile hother)
  · rintro ⟨hall, hother⟩
    refine ⟨_, (mapM_eq_ok fun _ _ => verifyFile_eq_ok h).2 ⟨hall, rfl⟩, ?_⟩
    rw [(hcovered _).2 fun path bytes hfile hne => List.mem_map.2 (hother path bytes hfile hne)]
    rfl

/-- A manifest that is accepted lists the other files, and itself or not. -/
theorem verifyIntegrity_iff_declares (h : Unpacks files) :
    verifyIntegrity reader integrity (contents files) = .ok () ↔
      Declares reader integrity files (· ≠ integrityManifestName) ∨
        Declares reader integrity files fun _ => True := by
  rw [verifyIntegrity_eq_ok h]
  constructor
  · rintro ⟨hlines, hothers⟩
    have hhashes : ∀ line ∈ integrity.files, ∀ bytes,
        HasFile files (normalizedName line.1) bytes →
        eqIgnoreAsciiCase line.2 (reader.sha256Hex bytes) = true := by
      intro line hline bytes hfile
      obtain ⟨bytes', hfile', hhash⟩ := hlines line hline
      rwa [hfile.unique h hfile']
    have hthere : ∀ path, (∃ line ∈ integrity.files, normalizedName line.1 = path) →
        ∃ bytes, HasFile files path bytes := by
      rintro path ⟨line, hline, rfl⟩
      obtain ⟨bytes, hfile, -⟩ := hlines line hline
      exact ⟨bytes, hfile⟩
    by_cases hown : ∃ line ∈ integrity.files, normalizedName line.1 = integrityManifestName
    · refine Or.inr ⟨fun path => ⟨fun hline => ⟨hthere path hline, trivial⟩, ?_⟩, hhashes⟩
      rintro ⟨⟨bytes, hfile⟩, -⟩
      by_cases hpath : path = integrityManifestName
      · rwa [hpath]
      · exact hothers path bytes hfile hpath
    · refine Or.inl ⟨fun path => ⟨fun hline => ⟨hthere path hline, ?_⟩, ?_⟩, hhashes⟩
      · rintro rfl
        exact hown hline
      · rintro ⟨⟨bytes, hfile⟩, hpath⟩
        exact hothers path bytes hfile hpath
  · have hdeclares : ∀ {listed : String → Prop},
        (∀ path, path ≠ integrityManifestName → listed path) →
        Declares reader integrity files listed → _ := fun hlisted hd =>
      And.intro (fun line hline => ((hd.names _).1 ⟨line, hline, rfl⟩).1.imp fun bytes hfile =>
        And.intro hfile (hd.hashes line hline bytes hfile))
        fun path bytes hfile hne => (hd.names path).2 ⟨⟨bytes, hfile⟩, hlisted path hne⟩
    rintro (hd | hd)
    · exact hdeclares (fun _ hne => hne) hd
    · exact hdeclares (fun _ _ => trivial) hd

/-- An unsigned manifest of the format, with a hash function that is known. -/
structure Supported (integrity : SoundPackIntegrity) : Prop where
  schema : integrity.schemaVersion = packSchemaVersion
  algorithm : integrity.algorithm = "sha256"
  unsigned : integrity.signature = none

/-- A valid theme that takes nothing from the built-in ones, all its sounds in the pack. -/
structure Importable (files : List PackFile) (theme : SoundTheme) : Prop where
  valid : ValidTheme theme
  unreserved : ¬ isReservedThemeId theme.id = true
  ownAssets : ∀ asset ∈ theme.assets, ¬ "builtin/".toList <+: asset.path.toList
  present : ∀ asset ∈ theme.assets,
    ∃ bytes, HasFile files asset.path bytes ∧ bytes.length = asset.sizeBytes

theorem verifyAsset_eq_ok (h : Unpacks files) {asset : SoundAsset} :
    verifyAsset (contents files) asset = .ok () ↔
      ¬ "builtin/".toList <+: asset.path.toList ∧
        ∃ bytes, HasFile files asset.path bytes ∧ bytes.length = asset.sizeBytes := by
  unfold verifyAsset
  split
  · rename_i hbuiltin
    refine ⟨fun hrun => (by cases hrun), fun ⟨hown, _⟩ => ?_⟩
    exact absurd (List.isPrefixOf_iff_prefix.1 hbuiltin) hown
  · rename_i hown
    rw [List.isPrefixOf_iff_prefix] at hown
    cases hlookup : (contents files).lookup asset.path with
    | none =>
      refine ⟨fun hrun => (by cases hrun), ?_⟩
      rintro ⟨-, bytes, hfile, -⟩
      rw [(lookup_contents h).2 hfile] at hlookup
      cases hlookup
    | some bytes =>
      have hfile := (lookup_contents h).1 hlookup
      simp only [ne_eq, ite_not]
      split
      · rename_i hsize
        exact ⟨fun _ => ⟨hown, bytes, hfile, hsize⟩, fun _ => rfl⟩
      · rename_i hsize
        refine ⟨fun hrun => (by cases hrun), ?_⟩
        rintro ⟨-, bytes', hfile', hsize'⟩
        exact absurd (hfile'.unique h hfile ▸ hsize') hsize

theorem verifyThemeAssetsPresent_eq_ok (h : Unpacks files) :
    verifyThemeAssetsPresent theme (contents files) = .ok () ↔
      (∀ asset ∈ theme.assets, ¬ "builtin/".toList <+: asset.path.toList) ∧
        ∀ asset ∈ theme.assets,
          ∃ bytes, HasFile files asset.path bytes ∧ bytes.length = asset.sizeBytes := by
  rw [← forall₂_and]
  exact forM_eq_ok fun _ => verifyAsset_eq_ok h

theorem parseIntegrityManifest_eq_ok :
    parseIntegrityManifest reader bytes = .ok integrity ↔
      reader.integrity bytes = some integrity ∧ integrity.schemaVersion = packSchemaVersion ∧
        integrity.algorithm = "sha256" ∧ integrity.files ≠ [] := by
  unfold parseIntegrityManifest
  cases hread : reader.integrity bytes with
  | none => simp
  | some found =>
    simp only [Option.some.injEq]
    constructor
    · intro hrun
      split at hrun
      · cases hrun
      rename_i hschema
      split at hrun
      · cases hrun
      rename_i halgorithm
      split at hrun
      · cases hrun
      rename_i hfiles
      cases hrun
      exact ⟨rfl, not_not.1 hschema, not_not.1 halgorithm, hfiles⟩
    · rintro ⟨rfl, hschema, halgorithm, hfiles⟩
      rw [if_neg (not_not.2 hschema), if_neg (not_not.2 halgorithm), if_neg hfiles]

/-- A manifest that covers the theme has a line. -/
theorem files_ne_nil (h : Unpacks files)
    (hverify : verifyIntegrity reader integrity (contents files) = .ok ())
    (htheme : ∃ bytes, HasFile files themeManifestName bytes) : integrity.files ≠ [] := by
  intro hnil
  obtain ⟨bytes, hfile⟩ := htheme
  obtain ⟨line, hline, -⟩ := ((verifyIntegrity_eq_ok h).1 hverify).2 _ bytes hfile (by decide)
  rw [hnil] at hline
  cases hline

theorem verifyContents_eq_ok (h : Unpacks files)
    (htheme : ∃ bytes, HasFile files themeManifestName bytes) :
    verifyContents reader theme (contents files) = .ok () ↔
      (∃ bytes integrity, HasFile files integrityManifestName bytes ∧
        reader.integrity bytes = some integrity ∧ Supported integrity ∧
        verifyIntegrity reader integrity (contents files) = .ok ()) ∧
      verifyThemeAssetsPresent theme (contents files) = .ok () := by
  unfold verifyContents
  cases hlookup : (contents files).lookup integrityManifestName with
  | none =>
    refine ⟨fun hrun => (by cases hrun), ?_⟩
    rintro ⟨⟨bytes, -, hfile, -⟩, -⟩
    rw [(lookup_contents h).2 hfile] at hlookup
    cases hlookup
  | some manifest =>
    have hmanifest := (lookup_contents h).1 hlookup
    constructor
    · intro hrun
      obtain ⟨integrity, hparse, hrun⟩ := bind_eq_ok.1 hrun
      obtain ⟨hread, hschema, halgorithm, -⟩ := parseIntegrityManifest_eq_ok.1 hparse
      split at hrun
      · cases hrun
      rename_i hunsigned
      obtain ⟨⟨⟩, hverify, hassets⟩ := bind_eq_ok.1 hrun
      exact ⟨⟨manifest, integrity, hmanifest, hread,
        ⟨hschema, halgorithm, by simpa using hunsigned⟩, hverify⟩, hassets⟩
    · rintro ⟨⟨bytes, integrity, hfile, hread, hsupported, hverify⟩, hassets⟩
      obtain rfl := hfile.unique h hmanifest
      refine bind_eq_ok.2 ⟨integrity, parseIntegrityManifest_eq_ok.2
        ⟨hread, hsupported.schema, hsupported.algorithm, files_ne_nil h hverify htheme⟩, ?_⟩
      rw [if_neg (by simp [hsupported.unsigned])]
      exact bind_eq_ok.2 ⟨(), hverify, hassets⟩

/-! ## Packs -/

variable (reader files)

/-- A good pack whose integrity manifest has the lines that `listed` asks for. -/
structure IntactListing (listed : String → Prop) : Prop where
  safe : ∀ file ∈ files, file.Safe
  readable : ∀ file ∈ regularFiles files, file.Readable
  distinct : ((regularFiles files).map PackFile.path).Nodup
  theme : ∃ bytes theme, HasFile files themeManifestName bytes ∧
    reader.theme bytes = .ok theme ∧ Importable files theme
  integrity : ∃ bytes integrity, HasFile files integrityManifestName bytes ∧
    reader.integrity bytes = some integrity ∧ Supported integrity ∧
    Declares reader integrity files listed

/-- The integrity manifest lists the other files. -/
def Intact : Prop := IntactListing reader files (· ≠ integrityManifestName)

/-- It lists itself as well. -/
def ListsItself : Prop := IntactListing reader files fun _ => True

def HasSlash : Prop := ∃ file ∈ files, file.EndsInSlash

variable {files}

theorem parseThemeManifest_eq_ok :
    parseThemeManifest reader bytes = .ok theme ↔ reader.theme bytes = .ok theme := by
  unfold parseThemeManifest Except.mapError
  cases reader.theme bytes <;> simp

theorem rejectReservedTheme_eq_ok :
    rejectReservedTheme theme = .ok () ↔ ¬ isReservedThemeId theme.id = true := by
  unfold rejectReservedTheme
  split <;> simp_all

theorem validatePackBytes_eq_ok {size : ℕ} (hlimits : WithinLimits size files) :
    (∃ v, validatePackBytes reader (packOf size files) = .ok v) ↔
      Unpacks files ∧
      (∃ bytes theme, HasFile files themeManifestName bytes ∧ reader.theme bytes = .ok theme ∧
        Importable files theme) ∧
      ∃ bytes integrity, HasFile files integrityManifestName bytes ∧
        reader.integrity bytes = some integrity ∧ Supported integrity ∧
        verifyIntegrity reader integrity (contents files) = .ok () := by
  have hsize : ¬ ((packOf size files).size = 0 ∨ maxPackBytes < (packOf size files).size) :=
    not_or.2 ⟨hlimits.nonempty, not_lt.2 hlimits.packed⟩
  unfold validatePackBytes
  rw [if_neg hsize]
  constructor
  · rintro ⟨v, hrun⟩
    obtain ⟨entries, hentries, hrun⟩ := bind_eq_ok.1 hrun
    obtain ⟨hunpacks, rfl⟩ := (readArchiveEntries_packOf hlimits).1 hentries
    refine ⟨hunpacks, ?_⟩
    cases hlookup : (contents files).lookup themeManifestName with
    | none =>
      rw [hlookup] at hrun
      cases hrun
    | some manifest =>
      have hfile := (lookup_contents hunpacks).1 hlookup
      simp only [hlookup] at hrun
      obtain ⟨theme, htheme, hrun⟩ := bind_eq_ok.1 hrun
      obtain ⟨⟨⟩, hvalid, hrun⟩ := bind_eq_ok.1 hrun
      obtain ⟨⟨⟩, hreserved, hrun⟩ := bind_eq_ok.1 hrun
      obtain ⟨⟨⟩, hcontents, -⟩ := bind_eq_ok.1 hrun
      obtain ⟨hintegrity, hassets⟩ :=
        (verifyContents_eq_ok hunpacks ⟨manifest, hfile⟩).1 hcontents
      obtain ⟨hown, hpresent⟩ := (verifyThemeAssetsPresent_eq_ok hunpacks).1 hassets
      exact ⟨⟨manifest, theme, hfile, (parseThemeManifest_eq_ok reader).1 htheme,
        validate_eq_ok.1 (mapError_eq_ok.1 hvalid), rejectReservedTheme_eq_ok.1 hreserved, hown,
        hpresent⟩, hintegrity⟩
  · rintro ⟨hunpacks, ⟨manifest, theme, hfile, htheme, himportable⟩, hintegrity⟩
    have hassets := (verifyThemeAssetsPresent_eq_ok hunpacks).2
      ⟨himportable.ownAssets, himportable.present⟩
    refine ⟨⟨theme, true, false, "sound pack passed validation"⟩,
      bind_eq_ok.2 ⟨_, (readArchiveEntries_packOf hlimits).2 ⟨hunpacks, rfl⟩, ?_⟩⟩
    rw [(lookup_contents hunpacks).2 hfile]
    refine bind_eq_ok.2 ⟨theme, (parseThemeManifest_eq_ok reader).2 htheme, ?_⟩
    refine bind_eq_ok.2 ⟨(), mapError_eq_ok.2 (validate_eq_ok.2 himportable.valid), ?_⟩
    refine bind_eq_ok.2 ⟨(), rejectReservedTheme_eq_ok.2 himportable.unreserved, ?_⟩
    exact bind_eq_ok.2 ⟨(), (verifyContents_eq_ok hunpacks ⟨manifest, hfile⟩).2
      ⟨hintegrity, hassets⟩, rfl⟩

variable {reader}

/-- Accepted are the packs without a directory entry that are intact, or list themselves. -/
theorem accepts_iff {size : ℕ} (hlimits : WithinLimits size files) :
    (∃ v, validatePackBytes reader (packOf size files) = .ok v) ↔
      ¬ HasSlash files ∧ (Intact reader files ∨ ListsItself reader files) := by
  rw [validatePackBytes_eq_ok reader hlimits]
  constructor
  · rintro ⟨hunpacks, htheme, bytes, integrity, hfile, hread, hsupported, hverify⟩
    have hlisting : ∀ listed, Declares reader integrity files listed →
        IntactListing reader files listed := fun _ hdeclares =>
      ⟨fun file hmem => Or.inl (hunpacks.safe file hmem), hunpacks.readable, hunpacks.distinct,
        htheme, bytes, integrity, hfile, hread, hsupported, hdeclares⟩
    refine ⟨?_, ((verifyIntegrity_iff_declares hunpacks).1 hverify).imp (hlisting _) (hlisting _)⟩
    rintro ⟨file, hmem, -, text, htext⟩
    exact not_safePath_slash text (htext ▸ hunpacks.safe file hmem)
  · rintro ⟨hslash, hlisting⟩
    have hunpacks : ∀ listed, IntactListing reader files listed → Unpacks files := fun _ h =>
      ⟨fun file hmem => (PackFile.safe_iff fun hends => hslash ⟨file, hmem, hends⟩).1
        (h.safe file hmem), h.readable, h.distinct⟩
    rcases hlisting with h | h
    · obtain ⟨bytes, integrity, hfile, hread, hsupported, hdeclares⟩ := h.integrity
      exact ⟨hunpacks _ h, h.theme, bytes, integrity, hfile, hread, hsupported,
        (verifyIntegrity_iff_declares (hunpacks _ h)).2 (Or.inl hdeclares)⟩
    · obtain ⟨bytes, integrity, hfile, hread, hsupported, hdeclares⟩ := h.integrity
      exact ⟨hunpacks _ h, h.theme, bytes, integrity, hfile, hread, hsupported,
        (verifyIntegrity_iff_declares (hunpacks _ h)).2 (Or.inr hdeclares)⟩

/-- A manifest decodes to one list of lines, with a line for the manifest or without. -/
theorem Intact.not_listsItself (h : Intact reader files) (hslash : ¬ HasSlash files) :
    ¬ ListsItself reader files := by
  intro hown
  have hunpacks : Unpacks files :=
    ⟨fun file hmem => (PackFile.safe_iff fun hends => hslash ⟨file, hmem, hends⟩).1
      (h.safe file hmem), h.readable, h.distinct⟩
  obtain ⟨bytes, integrity, hfile, hread, -, hdeclares⟩ := IntactListing.integrity h
  obtain ⟨bytes', integrity', hfile', hread', -, hdeclares'⟩ := IntactListing.integrity hown
  obtain rfl := hfile.unique hunpacks hfile'
  obtain rfl := Option.some.inj (hread.symm.trans hread')
  have hline := (hdeclares'.names integrityManifestName).2 ⟨⟨bytes, hfile⟩, trivial⟩
  exact ((hdeclares.names integrityManifestName).1 hline).2 rfl

variable (reader)

/-- Exactly the intact packs are accepted, unless the pack is intact and lists a directory with
a slash at the end, or is intact but for a manifest that also lists itself. -/
theorem accepts_intact_iff {size : ℕ} (hlimits : WithinLimits size files) :
    ((∃ v, validatePackBytes reader (packOf size files) = .ok v) ↔ Intact reader files) ↔
      ¬ (Intact reader files ∧ HasSlash files) ∧
        ¬ (ListsItself reader files ∧ ¬ HasSlash files) := by
  rw [accepts_iff hlimits]
  have hnot : ¬ HasSlash files → Intact reader files → ¬ ListsItself reader files :=
    fun hslash h => h.not_listsItself hslash
  tauto

end Manifest

/-! ## A pack with a directory -/

/-- The entries of the sample pack. -/
def sampleFiles (themeId themeHash : String) : List PackFile :=
  (sampleEntries themeId themeHash).map fun e => ⟨e.1, false, e.2⟩

/-- The entry of the directory that the sound is in. -/
def soundsEntry : PackFile := ⟨"sounds/", true, []⟩

def sampleName : String := "community.test-pack"

theorem sampleFiles_within {size : ℕ} (hsize : size ≠ 0) (hmax : size ≤ maxPackBytes) :
    WithinLimits size (sampleFiles sampleName packHash) :=
  ⟨hsize, hmax, by decide, by decide +kernel⟩

theorem sampleFiles_noSlash : ¬ HasSlash (sampleFiles sampleName packHash) := by
  rintro ⟨file, hmem, hdir, -⟩
  obtain ⟨e, -, rfl⟩ := List.mem_map.1 hmem
  cases hdir

/-- The manifest of the sample has no line for itself. -/
theorem sampleFiles_not_listsItself :
    ¬ ListsItself (sampleReader sampleName packHash) (sampleFiles sampleName packHash) := by
  intro h
  obtain ⟨bytes, integrity, hfile, hread, -, hdeclares⟩ := IntactListing.integrity h
  obtain ⟨line, hline, hname⟩ :=
    (hdeclares.names integrityManifestName).2 ⟨⟨bytes, hfile⟩, trivial⟩
  have hfiles : integrity.files =
      [("sounds/completed.wav", sampleSoundHash), ("theme.json", packHash)] := by
    unfold sampleReader at hread
    dsimp only at hread
    split at hread
    · rw [← Option.some.inj hread]
    · cases hread
  have hnone : ∀ line ∈ [("sounds/completed.wav", sampleSoundHash), ("theme.json", packHash)],
      normalizedName line.1 ≠ integrityManifestName := by
    decide
  exact hnone line (hfiles ▸ hline) hname

theorem accepts_intact_iff_sample :
    (∃ v, validatePackBytes (sampleReader sampleName packHash)
        (packOf 736 (sampleFiles sampleName packHash)) = .ok v) ↔
      Intact (sampleReader sampleName packHash) (sampleFiles sampleName packHash) :=
  (accepts_intact_iff _ (sampleFiles_within (by decide) (by decide))).2
    ⟨fun h => sampleFiles_noSlash h.2, fun h => sampleFiles_not_listsItself h.1⟩

theorem sampleFiles_intact :
    Intact (sampleReader sampleName packHash) (sampleFiles sampleName packHash) := by
  have hlimits : WithinLimits 736 (sampleFiles sampleName packHash) :=
    sampleFiles_within (by decide) (by decide)
  have hok : ∃ v, validatePackBytes (sampleReader sampleName packHash)
      (packOf 736 (sampleFiles sampleName packHash)) = .ok v :=
    ⟨_, sample_validation⟩
  exact ((accepts_iff hlimits).1 hok).2.resolve_right sampleFiles_not_listsItself

/-- Directories are passed over. -/
theorem Intact.cons_directory {reader : Reader} {files : List PackFile} (h : Intact reader files)
    (hdir : file.isDir = true) (hsafe : file.Safe) : Intact reader (file :: files) := by
  have hregular : regularFiles (file :: files) = regularFiles files := by
    simp [regularFiles, hdir]
  have hhas : HasFile (file :: files) = HasFile files := by
    funext path bytes
    rw [HasFile, HasFile, hregular]
  have himportable : ∀ theme, Importable files theme → Importable (file :: files) theme :=
    fun _ ht => ⟨ht.valid, ht.unreserved, ht.ownAssets, hhas ▸ ht.present⟩
  have hdeclares : ∀ integrity, Declares reader integrity files (· ≠ integrityManifestName) →
      Declares reader integrity (file :: files) (· ≠ integrityManifestName) :=
    fun _ hd => ⟨hhas ▸ hd.names, hhas ▸ hd.hashes⟩
  obtain ⟨bytes, theme, hfile, hread, htheme⟩ := IntactListing.theme h
  obtain ⟨bytes', integrity, hfile', hread', hsupported, hd⟩ := IntactListing.integrity h
  exact ⟨List.forall_mem_cons.2 ⟨hsafe, h.safe⟩, hregular ▸ h.readable, hregular ▸ h.distinct,
    ⟨bytes, theme, hhas ▸ hfile, hread, himportable theme htheme⟩,
    ⟨bytes', integrity, hhas ▸ hfile', hread', hsupported, hdeclares integrity hd⟩⟩

/-- The sample with an entry for its directory is intact, within the limits and refused. -/
theorem directory_entry_is_refused :
    let files := soundsEntry :: sampleFiles sampleName packHash
    WithinLimits 826 files ∧ Intact (sampleReader sampleName packHash) files ∧
      ¬ ∃ v, validatePackBytes (sampleReader sampleName packHash) (packOf 826 files) = .ok v := by
  intro files
  have hslash : forwardSlashes soundsEntry.name = "sounds".toList ++ ['/'] := by decide
  have hsafe : SafePath "sounds".toList :=
    safePath_iff.2 ⟨by decide, by decide⟩
  have hlimits : WithinLimits 826 files :=
    ⟨by decide, by decide, by decide, by decide +kernel⟩
  refine ⟨hlimits, sampleFiles_intact.cons_directory rfl (Or.inr ⟨rfl, _, hslash, hsafe⟩),
    fun hok => ?_⟩
  exact ((accepts_iff hlimits).1 hok).1 ⟨soundsEntry, List.mem_cons_self, rfl, _, hslash⟩

end SoundPack

end LlmNotch
