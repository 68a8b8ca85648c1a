import LlmNotch.StateExcept
import LlmNotch.RustText
import Mathlib.Data.List.Infix
import Mathlib.Logic.Function.Basic

/-!
# Paths and directory trees

Paths as the two families of platforms read them, where they lead, and programs that create
directories and write files. A location is the list of names below a volume, the volume
first. A tree has no links, so where a path leads is a matter of its components (`locate`).
What it walks through on the way is not : one family looks every component up in turn, so
that `a/..` needs a directory `a`, the other removes `..` from the text first (`steps`).

A `Disk` keeps a list of what was created or written (`Touch`), and of the operations to
come that fail. `wp_createDirAll` says what creating the directories of a path touches.
-/

namespace LlmNotch

namespace Files

/-! ## Paths -/

inductive Platform where
  | unix
  | windows
  deriving DecidableEq

/-- A path : its prefix, whether it starts at a root, and its components. -/
structure Path where
  volume : Option String
  rooted : Bool
  parts : List String
  deriving DecidableEq

def Platform.isSep : Platform → Char → Bool
  | .unix, c => c = '/'
  | .windows, c => c = '/' || c = '\\'

/-- The components of a text; empty ones and `.` are none. -/
def components (platform : Platform) (text : List Char) : List String :=
  ((text.splitOnP platform.isSep).filter fun part => part ≠ [] ∧ part ≠ ['.']).map String.ofList

def isAsciiLetter (c : Char) : Bool :=
  (65 ≤ c.toNat && c.toNat ≤ 90) || (97 ≤ c.toNat && c.toNat ≤ 122)

/-- The prefix of a text, whether a root follows it, and what comes after. -/
def volumeOf : Platform → List Char → Option String × Bool × List Char
  | .unix, text => (none, text.head?.any Platform.unix.isSep, text)
  | .windows, text =>
    let isSep := Platform.windows.isSep
    match text with
    | letter :: ':' :: rest =>
      if isAsciiLetter letter then (some (String.ofList [letter, ':']), rest.head?.any isSep, rest)
      else (none, isSep letter, text)
    | a :: b :: rest =>
      if isSep a && isSep b then
        -- `\\server\share`
        let server := rest.takeWhile fun c => !isSep c
        let share := (rest.drop (server.length + 1)).takeWhile fun c => !isSep c
        (some (String.ofList (['\\', '\\'] ++ server ++ ['\\'] ++ share)), true,
          rest.drop (server.length + 1 + share.length))
      else (none, isSep a, text)
    | _ => (none, text.head?.any isSep, text)

def Path.parse (platform : Platform) (text : String) : Path :=
  let (volume, rooted, rest) := volumeOf platform text.toList
  ⟨volume, rooted, components platform rest⟩

/-- `Path::join`. -/
def Path.join (base path : Path) : Path :=
  if path.volume.isSome then path
  else if path.rooted then { path with volume := base.volume }
  else { base with parts := base.parts ++ path.parts }

/-- `Path::parent` of a path with a component. -/
def Path.parent (path : Path) : Path :=
  { path with parts := path.parts.dropLast }

/-! ## Locations -/

abbrev Location := List String

/-- The current directories of the process, in general and of each volume. -/
structure Process where
  current : Location
  currentOf : String → Location

def Process.start (process : Process) (path : Path) : Location :=
  match path.volume, path.rooted with
  | some volume, true => [volume]
  | some volume, false => process.currentOf volume
  | none, true => process.current.take 1
  | none, false => process.current

/-- The directory above; a volume is above itself. -/
def up (location : Location) : Location :=
  if location.length ≤ 1 then location else location.dropLast

def descend (location : Location) (part : String) : Location :=
  if part = ".." then up location else location ++ [part]

/-- Where a path leads. -/
def Process.locate (process : Process) (path : Path) : Location :=
  path.parts.foldl descend (process.start path)

/-- What a path walks through, its end included. -/
def Process.steps (process : Process) (platform : Platform) (path : Path) : List Location :=
  match platform with
  | .unix => path.parts.scanl descend (process.start path)
  | .windows => (process.locate path).inits.filter (· ≠ [])

/-! ## Trees -/

inductive Node where
  | dir
  | file (bytes : List UInt8)
  deriving DecidableEq

/-- What is where. Names are compared exactly, also for platforms whose file systems do not tell
upper from lower case by default. -/
abbrev Tree := Location → Option Node

/-- Whatever is there has a directory above it. -/
def Tree.Closed (tree : Tree) : Prop :=
  ∀ above location, (tree location).isSome = true → above <+: location → above ≠ location →
    above ≠ [] → tree above = some .dir

/-- Something that was created or written. -/
inductive Touch where
  | dir (location : Location)
  | file (location : Location)
  deriving DecidableEq

structure Disk where
  tree : Tree
  touched : List Touch := []
  faults : List Bool := []

/-- Programs over a disk that fail with the text of an error. -/
abbrev DiskM := EStateM String Disk

/-- An operation that may fail before it has an effect. -/
def attemptIo (f : Disk → Disk) : DiskM Unit := fun d =>
  let rest := { d with faults := d.faults.tail }
  if d.faults.headD false then .error "Input/output error (os error 5)" rest else .ok () (f rest)

def Disk.put (d : Disk) (location : Location) (node : Node) (touch : Touch) : Disk :=
  { d with
    tree := Function.update d.tree location (some node)
    touched := d.touched ++ [touch] }

/-- `Path::exists`. -/
def pathExists (process : Process) (platform : Platform) (path : Path) (tree : Tree) : Bool :=
  (process.steps platform path).dropLast.all (fun location => tree location = some .dir) &&
    (tree (process.locate path)).isSome

/-- Create a directory on the way to `leaf` if it is missing. -/
def ensureDir (leaf location : Location) : DiskM Unit := do
  let d ← get
  match d.tree location with
  | some .dir => pure ()
  | some (.file _) =>
    -- a file above the leaf is found by the lookup, one in its place by the creation
    throw (if location = leaf then "File exists (os error 17)"
      else "Not a directory (os error 20)")
  | none => attemptIo fun d => d.put location .dir (.dir location)

/-- `create_dir_all`. -/
def createDirAll (process : Process) (platform : Platform) (path : Path) : DiskM Unit :=
  (process.steps platform path).forM (ensureDir (process.locate path))

/-- `fs::write` : the file is created or emptied, then its bytes are written. -/
def writeFile (location : Location) (bytes : List UInt8) : DiskM Unit := do
  let d ← get
  match d.tree location with
  | some .dir => throw "Is a directory (os error 21)"
  | _ =>
    attemptIo fun d => d.put location (.file []) (.file location)
    attemptIo fun d => { d with tree := Function.update d.tree location (some (.file bytes)) }

/-- `remove_dir_all`. -/
def removeDirAll (location : Location) : DiskM Unit :=
  attemptIo fun d => { d with tree := fun l => if location <+: l then none else d.tree l }

/-! ## What is touched -/

/-- What is there stays there, and everything touched in between satisfies `P`. -/
structure Adds (P : Touch → Prop) (d d' : Disk) : Prop where
  kept : ∀ location, (d.tree location).isSome = true → (d'.tree location).isSome = true
  dirs : ∀ location, d.tree location = some .dir → d'.tree location = some .dir
  touched : ∃ more, d'.touched = d.touched ++ more ∧ ∀ touch ∈ more, P touch

namespace Adds

variable {P : Touch → Prop} {d₀ d d' : Disk}

theorem refl (d : Disk) : Adds P d d :=
  ⟨fun _ h => h, fun _ h => h, [], by simp, by simp⟩

theorem trans (h : Adds P d₀ d) (h' : Adds P d d') : Adds P d₀ d' := by
  obtain ⟨more, hmore, hP⟩ := h.touched
  obtain ⟨more', hmore', hP'⟩ := h'.touched
  refine ⟨fun l hl => h'.kept l (h.kept l hl), fun l hl => h'.dirs l (h.dirs l hl), more ++ more',
    by rw [hmore', hmore, List.append_assoc], fun touch ht => ?_⟩
  rcases List.mem_append.1 ht with ht | ht
  · exact hP touch ht
  · exact hP' touch ht

theorem mono {Q : Touch → Prop} (h : Adds P d d') (hQ : ∀ touch, P touch → Q touch) :
    Adds Q d d' :=
  ⟨h.kept, h.dirs, h.touched.imp fun _ hm => ⟨hm.1, fun t ht => hQ t (hm.2 t ht)⟩⟩

theorem faults (h : Adds P d₀ d) (faults : List Bool) : Adds P d₀ { d with faults } :=
  ⟨h.kept, h.dirs, h.touched⟩

/-- Something is put where no directory is. -/
theorem put {location : Location} {node : Node} {touch : Touch}
    (hnot : d.tree location ≠ some .dir) (hP : P touch) : Adds P d (d.put location node touch) := by
  refine ⟨fun l hl => ?_, fun l hl => ?_, [touch], rfl, by simpa using hP⟩
  · by_cases h : l = location
    · simp [Disk.put, h]
    · simpa [Disk.put, Function.update_of_ne h] using hl
  · have h : l ≠ location := fun h => hnot (h ▸ hl)
    simpa [Disk.put, Function.update_of_ne h] using hl

end Adds

section Rules

variable {d : Disk}

theorem wp_attemptIo {f : Disk → Disk} {Q : Unit → Disk → Prop} {E : String → Disk → Prop}
    (hQ : Q () (f { d with faults := d.faults.tail }))
    (hE : ∀ text, E text { d with faults := d.faults.tail }) : wp (attemptIo f) d Q E := by
  unfold wp attemptIo
  by_cases hfault : d.faults.headD false = true
  · simpa only [if_pos hfault] using hE _
  · simpa only [if_neg hfault] using hQ

theorem wp_ensureDir (leaf location : Location) :
    wp (ensureDir leaf location) d
      (fun _ d' => Adds (fun t => t = .dir location ∧ d.tree location = none) d d' ∧
        d'.tree location = some .dir ∧ (d.tree location = none → .dir location ∈ d'.touched) ∧
        ∀ l, l ≠ location → d'.tree l = d.tree l)
      fun _ => Adds (fun t => t = .dir location ∧ d.tree location = none) d := by
  unfold ensureDir
  rw [wp_bind, wp_get]
  cases hnode : d.tree location with
  | none =>
    refine wp_attemptIo ⟨?_, ?_, fun _ => ?_, fun l hl => ?_⟩ fun _ => (Adds.refl d).faults _
    · exact ((Adds.refl d).faults d.faults.tail).trans (.put (by simp [hnode]) ⟨rfl, rfl⟩)
    · simp [Disk.put]
    · simp [Disk.put]
    · simp [Disk.put, Function.update_of_ne hl]
  | some node =>
    cases node with
    | dir => exact ⟨.refl d, hnode, fun h => (by cases h), fun _ _ => rfl⟩
    | file bytes => exact .refl d

/-- Creating directories one after another touches those that are missing. -/
theorem wp_ensureDirs (leaf : Location) (locations : List Location) :
    wp (locations.forM (ensureDir leaf)) d
      (fun _ d' => Adds (fun t => ∃ l ∈ locations, t = .dir l ∧ d.tree l = none) d d' ∧
        ∀ l ∈ locations, d'.tree l = some .dir ∧ (d.tree l = none → .dir l ∈ d'.touched))
      fun _ => Adds (fun t => ∃ l ∈ locations, t = .dir l ∧ d.tree l = none) d := by
  induction locations generalizing d with
  | nil => exact ⟨.refl d, by simp⟩
  | cons location rest ih =>
    show wp (ensureDir leaf location >>= fun _ => rest.forM (ensureDir leaf)) d _ _
    rw [wp_bind]
    refine wp_mono (wp_ensureDir leaf location) (fun _ d₁ h₁ => ?_) fun _ d₁ h₁ => ?_
    · obtain ⟨hadds, hdir, htouched, hother⟩ := h₁
      have hfirst : Adds (fun t => ∃ l ∈ location :: rest, t = .dir l ∧ d.tree l = none) d d₁ :=
        hadds.mono fun t ht => ⟨location, List.mem_cons_self, ht⟩
      have hrest : ∀ {d₂}, Adds (fun t => ∃ l ∈ rest, t = .dir l ∧ d₁.tree l = none) d₁ d₂ →
          Adds (fun t => ∃ l ∈ location :: rest, t = .dir l ∧ d.tree l = none) d₁ d₂ := by
        refine fun h => h.mono ?_
        rintro t ⟨l, hl, rfl, hmissing⟩
        refine ⟨l, List.mem_cons_of_mem _ hl, rfl, ?_⟩
        by_contra hthere
        have hkept := hadds.kept l (Option.isSome_iff_ne_none.2 hthere)
        rw [hmissing] at hkept
        cases hkept
      refine wp_mono ih (fun _ d₂ h₂ => ?_) fun _ d₂ h₂ => hfirst.trans (hrest h₂)
      obtain ⟨hadds₂, hall⟩ := h₂
      obtain ⟨more, hmore, -⟩ := hadds₂.touched
      refine ⟨hfirst.trans (hrest hadds₂), fun l hl => ?_⟩
      rcases List.mem_cons.1 hl with rfl | hl
      · refine ⟨hadds₂.dirs l hdir, fun hmissing => ?_⟩
        rw [hmore]
        exact List.mem_append_left _ (htouched hmissing)
      · refine ⟨(hall l hl).1, fun hmissing => ?_⟩
        by_cases he : l = location
        · rw [hmore, he]
          exact List.mem_append_left _ (htouched (he ▸ hmissing))
        · exact (hall l hl).2 ((hother l he).trans hmissing)
    · exact h₁.mono fun t ht => ⟨location, List.mem_cons_self, ht⟩

theorem wp_createDirAll (process : Process) (platform : Platform) (path : Path) :
    wp (createDirAll process platform path) d
      (fun _ d' => Adds (fun t => ∃ l ∈ process.steps platform path,
          t = .dir l ∧ d.tree l = none) d d' ∧
        ∀ l ∈ process.steps platform path, d'.tree l = some .dir ∧
          (d.tree l = none → .dir l ∈ d'.touched))
      fun _ => Adds (fun t => ∃ l ∈ process.steps platform path,
        t = .dir l ∧ d.tree l = none) d :=
  wp_ensureDirs _ _

theorem wp_writeFile (location : Location) (bytes : List UInt8) :
    wp (writeFile location bytes) d
      (fun _ d' => Adds (· = .file location) d d' ∧ .file location ∈ d'.touched)
      fun _ => Adds (· = .file location) d := by
  unfold writeFile
  rw [wp_bind, wp_get]
  have hwrite : d.tree location ≠ some .dir → wp (do
      attemptIo fun d => d.put location (.file []) (.file location)
      attemptIo fun d => { d with tree := Function.update d.tree location (some (.file bytes)) }) d
      (fun _ d' => Adds (· = .file location) d d' ∧ .file location ∈ d'.touched)
      fun _ => Adds (· = .file location) d := by
    intro hnot
    rw [wp_bind]
    refine wp_attemptIo ?_ fun _ => (Adds.refl d).faults _
    have hput : Adds (· = .file location) d
        ({ d with faults := d.faults.tail }.put location (.file []) (.file location)) :=
      ((Adds.refl d).faults d.faults.tail).trans (.put hnot rfl)
    refine wp_attemptIo ⟨⟨fun l hl => ?_, fun l hl => ?_, hput.touched⟩, ?_⟩
      fun _ => hput.faults _
    · by_cases h : l = location
      · simp [h]
      · simpa [Function.update_of_ne h, Disk.put] using hl
    · have h : l ≠ location := fun h => hnot (h ▸ hl)
      simpa [Function.update_of_ne h, Disk.put] using hl
    · simp [Disk.put]
  cases hnode : d.tree location with
  | none => exact hwrite (by simp [hnode])
  | some node =>
    cases node with
    | dir => exact .refl d
    | file content => exact hwrite (by simp [hnode])

end Rules

/-! ## Descending -/

section Descent

variable (process : Process) (platform : Platform) (path : Path)

/-- The components lead down. -/
def Plain (parts : List String) : Prop :=
  ".." ∉ parts

theorem foldl_descend {parts : List String} (h : Plain parts) (location : Location) :
    parts.foldl descend location = location ++ parts := by
  induction parts generalizing location with
  | nil => simp
  | cons part parts ih =>
    have hpart : part ≠ ".." := fun he => h (he ▸ List.mem_cons_self)
    rw [List.foldl_cons, ih fun hmem => h (List.mem_cons_of_mem _ hmem), descend, if_neg hpart,
      List.append_assoc]
    rfl

/-- What plain components walk through lies below where they start. -/
theorem isPrefix_of_mem_scanl {parts : List String} (h : Plain parts) {location l : Location}
    (hl : l ∈ parts.scanl descend location) : location <+: l := by
  induction parts generalizing location with
  | nil =>
    rw [List.scanl_nil, List.mem_singleton] at hl
    exact hl ▸ List.prefix_rfl
  | cons part parts ih =>
    have hpart : part ≠ ".." := fun he => h (he ▸ List.mem_cons_self)
    rw [List.scanl_cons, List.mem_cons] at hl
    rcases hl with rfl | hl
    · exact List.prefix_rfl
    · refine List.IsPrefix.trans ?_ (ih (fun hmem => h (List.mem_cons_of_mem _ hmem)) hl)
      rw [descend, if_neg hpart]
      exact List.prefix_append _ _

theorem mem_scanl_append {parts more : List String} {location l : Location}
    (hl : l ∈ (parts ++ more).scanl descend location) :
    l ∈ parts.scanl descend location ∨
      l ∈ more.scanl descend (parts.foldl descend location) := by
  induction parts generalizing location with
  | nil => exact Or.inr hl
  | cons part parts ih =>
    rw [List.cons_append, List.scanl_cons, List.mem_cons] at hl
    rw [List.scanl_cons, List.mem_cons]
    rcases hl with rfl | hl
    · exact Or.inl (Or.inl rfl)
    · exact (ih hl).imp_left Or.inr

/-- Plain components below a path : what is walked through is walked through on the way to
the path, or lies below it. -/
theorem mem_steps_below {below : List String} (h : Plain below) {l : Location}
    (hl : l ∈ process.steps platform { path with parts := path.parts ++ below }) :
    l ∈ process.steps platform path ∨ process.locate path <+: l := by
  cases platform with
  | unix =>
    exact (mem_scanl_append hl).imp_right (isPrefix_of_mem_scanl h)
  | windows =>
    have hlocate : process.locate { path with parts := path.parts ++ below } =
        process.locate path ++ below := by
      show (path.parts ++ below).foldl descend _ = _
      rw [List.foldl_append, foldl_descend h]
      rfl
    simp only [Process.steps, hlocate, List.mem_filter, List.mem_inits] at hl ⊢
    rcases List.prefix_or_prefix_of_prefix hl.1 (List.prefix_append (process.locate path) below)
      with hup | hdown
    · exact Or.inl ⟨hup, hl.2⟩
    · exact Or.inr hdown

end Descent

end Files

end LlmNotch
