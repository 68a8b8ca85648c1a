import LlmNotch.FilePaths
import Mathlib.Data.Finset.Card

/-!
# What has to hold for a program to write all its files

A program that creates directories and writes files one after another has a plan (`Op`), and
`Runs` says that it carries the plan out or fails. It goes through exactly if every operation
finds what it needs and none of its I/O operations fails (`Possible`).

The order does not matter for the first half : `passes_iff_compatible`, nothing is to be both a
directory and a file, and what is there already is of the right kind. `costs_eq` counts the I/O
operations : one for each missing directory, two for each file. `applyAll_dir` and
`applyAll_file` say what is there in the end.
-/

namespace LlmNotch

namespace Files

/-- Something a program puts in its place. -/
inductive Op where
  | dir (location : Location)
  | file (location : Location) (bytes : List UInt8)

namespace Op

/-- The tree after the operation. -/
def apply (tree : Tree) : Op → Tree
  | dir l => Function.update tree l (some .dir)
  | file l bytes => Function.update tree l (some (.file bytes))

/-- What is in the place of the operation does not keep it from being done. -/
def Fits (tree : Tree) : Op → Prop
  | dir l => ∀ bytes, tree l ≠ some (.file bytes)
  | file l _ => tree l ≠ some .dir

/-- The number of I/O operations. -/
def cost (tree : Tree) : Op → ℕ
  | dir l => if tree l = none then 1 else 0
  | file _ _ => 2

end Op

def applyAll (tree : Tree) (ops : List Op) : Tree := ops.foldl Op.apply tree

def Passes (tree : Tree) : List Op → Prop
  | [] => True
  | op :: ops => op.Fits tree ∧ Passes (op.apply tree) ops

def costs (tree : Tree) : List Op → ℕ
  | [] => 0
  | op :: ops => op.cost tree + costs (op.apply tree) ops

/-- None of the next `n` I/O operations fails. -/
def NoFault (n : ℕ) (faults : List Bool) : Prop := ∀ fault ∈ faults.take n, fault = false

/-- The plan can be carried out on the disk. -/
structure Possible (ops : List Op) (d : Disk) : Prop where
  passes : Passes d.tree ops
  noFault : NoFault (costs d.tree ops) d.faults

/-- It was carried out. -/
structure Done (ops : List Op) (d d' : Disk) : Prop where
  possible : Possible ops d
  tree : d'.tree = applyAll d.tree ops
  faults : d'.faults = d.faults.drop (costs d.tree ops)

/-- The program carries out the plan, or fails because that is not possible. -/
def Runs {ε α : Type} (m : EStateM ε Disk α) (ops : List Op) : Prop :=
  ∀ d, wp m d (fun _ d' => Done ops d d') fun _ _ => ¬ Possible ops d

/-! ## Programs and their plans -/

section Rules

variable {ε α β : Type} {d : Disk} {tree : Tree} {ops ops' : List Op}

theorem noFault_add {m n : ℕ} {faults : List Bool} :
    NoFault (m + n) faults ↔ NoFault m faults ∧ NoFault n (faults.drop m) := by
  simp only [NoFault, List.take_add, List.forall_mem_append]

theorem noFault_one {faults : List Bool} : NoFault 1 faults ↔ ¬ faults.headD false = true := by
  cases faults <;> simp [NoFault]

theorem noFault_two {faults : List Bool} : NoFault 2 faults ↔
    ¬ faults.headD false = true ∧ ¬ faults.tail.headD false = true := by
  rw [show (2 : ℕ) = 1 + 1 from rfl, noFault_add, noFault_one, noFault_one, List.drop_one]

theorem applyAll_append (tree : Tree) (ops ops' : List Op) :
    applyAll tree (ops ++ ops') = applyAll (applyAll tree ops) ops' :=
  List.foldl_append

theorem passes_append : Passes tree (ops ++ ops') ↔
    Passes tree ops ∧ Passes (applyAll tree ops) ops' := by
  induction ops generalizing tree with
  | nil => simp [Passes, applyAll]
  | cons op ops ih =>
    show op.Fits tree ∧ Passes (op.apply tree) (ops ++ ops') ↔ _
    rw [ih, ← and_assoc]
    rfl

theorem costs_append : costs tree (ops ++ ops') =
    costs tree ops + costs (applyAll tree ops) ops' := by
  induction ops generalizing tree with
  | nil => simp [costs, applyAll]
  | cons op ops ih =>
    show op.cost tree + costs (op.apply tree) (ops ++ ops') = _
    rw [ih, ← add_assoc]
    rfl

theorem possible_append {d₁ : Disk} (h : Done ops d d₁) :
    Possible (ops ++ ops') d ↔ Possible ops' d₁ := by
  constructor
  · intro hboth
    have hfault := hboth.noFault
    rw [costs_append, noFault_add] at hfault
    exact ⟨h.tree ▸ (passes_append.1 hboth.passes).2, by rw [h.tree, h.faults]; exact hfault.2⟩
  · intro hrest
    refine ⟨passes_append.2 ⟨h.possible.passes, h.tree ▸ hrest.passes⟩, ?_⟩
    rw [costs_append, noFault_add, ← h.faults, ← h.tree]
    exact ⟨h.possible.noFault, hrest.noFault⟩

theorem Possible.of_append (h : Possible (ops ++ ops') d) : Possible ops d := by
  have hfault := h.noFault
  rw [costs_append, noFault_add] at hfault
  exact ⟨(passes_append.1 h.passes).1, hfault.1⟩

theorem runs_pure (a : α) : Runs (pure a : EStateM ε Disk α) [] :=
  fun d => ⟨⟨trivial, by simp [NoFault, costs]⟩, rfl, by simp [costs]⟩

theorem Done.append {d₁ d₂ : Disk} (h : Done ops d d₁) (h' : Done ops' d₁ d₂) :
    Done (ops ++ ops') d d₂ := by
  refine ⟨(possible_append h).2 h'.possible, ?_, ?_⟩
  · rw [h'.tree, h.tree, applyAll_append]
  · rw [h'.faults, h.faults, h.tree, List.drop_drop, costs_append]

theorem Runs.bind {m : EStateM ε Disk α} {f : α → EStateM ε Disk β} (hm : Runs m ops)
    (hf : ∀ a, Runs (f a) ops') : Runs (m >>= f) (ops ++ ops') := by
  intro d
  rw [wp_bind]
  refine wp_mono (hm d) (fun a d₁ h₁ => ?_) fun _ _ h hpossible => h hpossible.of_append
  exact wp_mono (hf a d₁) (fun _ _ h₂ => h₁.append h₂) fun _ _ h hpossible =>
    h ((possible_append h₁).1 hpossible)

theorem runs_forM {f : β → EStateM ε Disk PUnit} {plan : β → List Op} (xs : List β)
    (hf : ∀ x ∈ xs, Runs (f x) (plan x)) : Runs (xs.forM f) (xs.flatMap plan) := by
  induction xs with
  | nil => exact runs_pure _
  | cons x xs ih =>
    rw [List.flatMap_cons]
    exact (hf x List.mem_cons_self).bind fun _ => ih fun y hy => hf y (List.mem_cons_of_mem _ hy)

/-- The rule for an operation that may fail. -/
theorem wp_attemptIo_iff {f : Disk → Disk} {Q : Unit → Disk → Prop} {E : String → Disk → Prop} :
    wp (attemptIo f) d Q E ↔
      if d.faults.headD false = true then
        E "Input/output error (os error 5)" { d with faults := d.faults.tail }
      else Q () (f { d with faults := d.faults.tail }) := by
  unfold wp attemptIo
  by_cases hfault : d.faults.headD false = true
  · simp only [if_pos hfault]
  · simp only [if_neg hfault]

theorem possible_single (op : Op) (d : Disk) :
    Possible [op] d ↔ op.Fits d.tree ∧ NoFault (op.cost d.tree) d.faults :=
  ⟨fun h => ⟨h.passes.1, h.noFault⟩, fun h => ⟨⟨h.1, trivial⟩, h.2⟩⟩

theorem runs_ensureDir (leaf l : Location) : Runs (ensureDir leaf l) [.dir l] := by
  intro d
  have hpossible := possible_single (.dir l) d
  unfold ensureDir
  rw [wp_bind, wp_get]
  cases hnode : d.tree l with
  | none =>
    have hcost : Op.cost d.tree (.dir l) = 1 := if_pos hnode
    have hfits : Op.Fits d.tree (.dir l) := fun bytes h => by rw [hnode] at h; cases h
    rw [hcost, noFault_one] at hpossible
    dsimp only
    rw [wp_attemptIo_iff]
    split
    · rename_i hfault
      exact fun h => (hpossible.1 h).2 hfault
    · rename_i hfault
      refine ⟨hpossible.2 ⟨hfits, hfault⟩, rfl, ?_⟩
      show d.faults.tail = d.faults.drop (costs d.tree [.dir l])
      rw [costs, hcost, costs, List.drop_one]
  | some node =>
    cases node with
    | dir =>
      have hcost : Op.cost d.tree (.dir l) = 0 := if_neg (by simp [hnode])
      have hfits : Op.Fits d.tree (.dir l) := fun bytes h => by rw [hnode] at h; cases h
      refine ⟨hpossible.2 ⟨hfits, by simp [hcost, NoFault]⟩, ?_, by simp [costs, hcost]⟩
      exact (Function.update_eq_self_iff.2 hnode.symm).symm
    | file bytes => exact fun h => (hpossible.1 h).1 bytes hnode

theorem runs_writeFile (l : Location) (bytes : List UInt8) :
    Runs (writeFile l bytes) [.file l bytes] := by
  intro d
  have hpossible := possible_single (.file l bytes) d
  unfold writeFile
  rw [wp_bind, wp_get]
  have hcost : costs d.tree [.file l bytes] = 2 := rfl
  have hwrite : d.tree l ≠ some .dir → wp (do
      attemptIo fun d => d.put l (.file []) (.file l)
      attemptIo fun d => { d with tree := Function.update d.tree l (some (.file bytes)) }) d
      (fun _ d' => Done [.file l bytes] d d') fun _ _ => ¬ Possible [.file l bytes] d := by
    intro hfits
    have hpossible' : Possible [.file l bytes] d ↔
        ¬ d.faults.headD false = true ∧ ¬ d.faults.tail.headD false = true :=
      hpossible.trans (by rw [show Op.cost d.tree (.file l bytes) = 2 from rfl, noFault_two]
                          exact and_iff_right hfits)
    rw [wp_bind, wp_attemptIo_iff]
    split
    · rename_i hfault
      exact fun h => (hpossible'.1 h).1 hfault
    rename_i hfirst
    rw [wp_attemptIo_iff]
    split
    · rename_i hfault
      exact fun h => (hpossible'.1 h).2 hfault
    · rename_i hsecond
      refine ⟨hpossible'.2 ⟨hfirst, hsecond⟩, Function.update_idem _ _ _, ?_⟩
      show d.faults.tail.tail = d.faults.drop (costs d.tree [.file l bytes])
      rw [hcost, ← List.drop_one, ← List.drop_one, List.drop_drop]
  cases hnode : d.tree l with
  | none => exact hwrite (by simp [hnode])
  | some node =>
    cases node with
    | dir => exact fun h => (hpossible.1 h).1 hnode
    | file content => exact hwrite (by simp [hnode])

theorem runs_createDirAll (process : Process) (platform : Platform) (path : Path) :
    Runs (createDirAll process platform path) ((process.steps platform path).map .dir) := by
  rw [List.map_eq_flatMap]
  exact runs_forM _ fun l _ => runs_ensureDir _ l

end Rules

/-! ## What a plan needs -/

/-- What is there is of the right kind, and nothing is to be both a directory and a file. -/
structure Compatible (tree : Tree) (ops : List Op) : Prop where
  fits : ∀ op ∈ ops, op.Fits tree
  oneKind : ∀ l bytes, .dir l ∈ ops → .file l bytes ∉ ops

def dirsOf (ops : List Op) : List Location :=
  ops.filterMap fun op => match op with
    | .dir l => some l
    | .file _ _ => none

def filesOf (ops : List Op) : List Location :=
  ops.filterMap fun op => match op with
    | .dir _ => none
    | .file l _ => some l

section Needs

variable {tree : Tree} {ops : List Op}

variable {l : Location}

theorem mem_dirsOf : l ∈ dirsOf ops ↔ .dir l ∈ ops := by
  simp only [dirsOf, List.mem_filterMap]
  constructor
  · rintro ⟨op, hop, h⟩
    cases op with
    | dir l' => exact Option.some.inj h ▸ hop
    | file l' bytes => cases h
  · exact fun h => ⟨_, h, rfl⟩

/-- After a directory is there, what fits is what fitted, and no file of that name. -/
theorem fits_apply_dir (h : Op.Fits tree (.dir l)) (op : Op) :
    op.Fits (Op.apply tree (.dir l)) ↔ op.Fits tree ∧ ∀ bytes, op ≠ .file l bytes := by
  cases op with
  | dir l' =>
    simp only [Op.Fits, Op.apply, reduceCtorEq, ne_eq, not_false_eq_true, implies_true, and_true]
    by_cases hl : l' = l
    · subst hl
      exact ⟨fun _ => h, fun _ _ => by simp⟩
    · rw [Function.update_of_ne hl]
  | file l' bytes' =>
    simp only [Op.Fits, Op.apply]
    by_cases hl : l' = l
    · subst hl
      simp
    · rw [Function.update_of_ne hl]
      have hne : ∀ bytes, Op.file l' bytes' ≠ .file l bytes := fun bytes he => by
        injection he with he
        exact hl he
      simp [hne]

theorem fits_apply_file {bytes : List UInt8} (h : Op.Fits tree (.file l bytes)) (op : Op) :
    op.Fits (Op.apply tree (.file l bytes)) ↔ op.Fits tree ∧ op ≠ .dir l := by
  cases op with
  | dir l' =>
    simp only [Op.Fits, Op.apply]
    by_cases hl : l' = l
    · subst hl
      simp
    · rw [Function.update_of_ne hl]
      have hne : Op.dir l' ≠ .dir l := fun he => by
        injection he with he
        exact hl he
      simp [hne]
  | file l' bytes' =>
    simp only [Op.Fits, Op.apply, reduceCtorEq, ne_eq, not_false_eq_true, and_true]
    by_cases hl : l' = l
    · subst hl
      exact ⟨fun _ => h, fun _ => by simp⟩
    · rw [Function.update_of_ne hl]

/-- Whether a plan passes does not depend on its order. -/
theorem passes_iff_compatible : Passes tree ops ↔ Compatible tree ops := by
  induction ops generalizing tree with
  | nil => exact ⟨fun _ => ⟨by simp, by simp⟩, fun _ => trivial⟩
  | cons op ops ih =>
    show op.Fits tree ∧ Passes (op.apply tree) ops ↔ _
    rw [ih]
    cases op with
    | dir l =>
      constructor
      · rintro ⟨hfits, hrest⟩
        have hsplit := fun op' hop' => (fits_apply_dir hfits op').1 (hrest.fits op' hop')
        refine ⟨List.forall_mem_cons.2 ⟨hfits, fun op' hop' => (hsplit op' hop').1⟩, ?_⟩
        intro l' bytes hdir hfile
        have hfile' : .file l' bytes ∈ ops := by simpa using hfile
        rcases List.mem_cons.1 hdir with he | hdir
        · injection he with he
          exact (hsplit _ hfile').2 bytes (he ▸ rfl)
        · exact hrest.oneKind l' bytes hdir hfile'
      · intro h
        obtain ⟨hfits, hall⟩ := List.forall_mem_cons.1 h.fits
        refine ⟨hfits, fun op' hop' => (fits_apply_dir hfits op').2 ⟨hall op' hop', ?_⟩, ?_⟩
        · rintro bytes rfl
          exact h.oneKind l bytes List.mem_cons_self (List.mem_cons_of_mem _ hop')
        · exact fun l' bytes hdir hfile =>
            h.oneKind l' bytes (List.mem_cons_of_mem _ hdir) (List.mem_cons_of_mem _ hfile)
    | file l bytes =>
      constructor
      · rintro ⟨hfits, hrest⟩
        have hsplit := fun op' hop' => (fits_apply_file hfits op').1 (hrest.fits op' hop')
        refine ⟨List.forall_mem_cons.2 ⟨hfits, fun op' hop' => (hsplit op' hop').1⟩, ?_⟩
        intro l' bytes' hdir hfile
        have hdir' : .dir l' ∈ ops := by simpa using hdir
        rcases List.mem_cons.1 hfile with he | hfile
        · injection he with he
          exact (hsplit _ hdir').2 (he ▸ rfl)
        · exact hrest.oneKind l' bytes' hdir' hfile
      · intro h
        obtain ⟨hfits, hall⟩ := List.forall_mem_cons.1 h.fits
        refine ⟨hfits, fun op' hop' => (fits_apply_file hfits op').2 ⟨hall op' hop', ?_⟩, ?_⟩
        · rintro rfl
          exact h.oneKind l bytes (List.mem_cons_of_mem _ hop') List.mem_cons_self
        · exact fun l' bytes' hdir hfile =>
            h.oneKind l' bytes' (List.mem_cons_of_mem _ hdir) (List.mem_cons_of_mem _ hfile)

/-- The directories that are missing. -/
def missingDirs (tree : Tree) (ops : List Op) : Finset Location :=
  (dirsOf ops).toFinset.filter fun l => tree l = none

/-- One I/O operation for each missing directory and two for each file. -/
theorem costs_eq (h : Compatible tree ops) :
    costs tree ops = (missingDirs tree ops).card + 2 * (filesOf ops).length := by
  rw [← passes_iff_compatible] at h
  induction ops generalizing tree with
  | nil => rfl
  | cons op ops ih =>
    obtain ⟨hfits, hrest⟩ := h
    rw [costs, ih hrest]
    cases op with
    | dir l =>
      have hdirs : dirsOf (.dir l :: ops) = l :: dirsOf ops := rfl
      have hfiles : filesOf (.dir l :: ops) = filesOf ops := rfl
      rw [hfiles, missingDirs, missingDirs, hdirs, List.toFinset_cons, Finset.filter_insert]
      set dirs := (dirsOf ops).toFinset with hset
      by_cases hnode : tree l = none
      · have herase : (dirs.filter fun l' => Op.apply tree (.dir l) l' = none) =
            (insert l (dirs.filter fun l' => tree l' = none)).erase l := by
          ext l'
          simp only [Finset.mem_filter, Finset.mem_erase, Finset.mem_insert]
          by_cases hl : l' = l
          · simp [hl, Op.apply]
          · simp [Op.apply, hl]
        have hcard := Finset.card_erase_add_one
          (Finset.mem_insert_self l (dirs.filter fun l' => tree l' = none))
        rw [Op.cost, if_pos hnode, if_pos hnode, herase]
        omega
      · have hsame : (dirs.filter fun l' => Op.apply tree (.dir l) l' = none) =
            dirs.filter fun l' => tree l' = none := by
          refine Finset.filter_congr fun l' _ => ?_
          by_cases hl : l' = l
          · simp [hl, Op.apply, hnode]
          · simp [Op.apply, hl]
        rw [Op.cost, if_neg hnode, if_neg hnode, hsame]
        omega
    | file l bytes =>
      have hfiles : (filesOf (.file l bytes :: ops)).length = (filesOf ops).length + 1 := rfl
      have hno : l ∉ dirsOf ops := by
        intro hmem
        have hfit := (passes_iff_compatible.1 hrest).fits _ (mem_dirsOf.1 hmem)
        exact ((fits_apply_file hfits _).1 hfit).2 rfl
      have hsame : missingDirs (Op.apply tree (.file l bytes)) ops = missingDirs tree ops := by
        refine Finset.filter_congr fun l' hl' => ?_
        have hl : l' ≠ l := fun he => hno (he ▸ List.mem_toFinset.1 hl')
        simp [Op.apply, hl]
      have hmissing : missingDirs tree (.file l bytes :: ops) = missingDirs tree ops := rfl
      rw [hfiles, hsame, hmissing, Op.cost]
      omega

/-- What an operation of the plan puts there is there in the end, if no operation replaces it. -/
theorem applyAll_node {node : Node} (h : Passes tree ops)
    (hkeeps : ∀ op ∈ ops, ∀ t, op.Fits t → t l = some node → op.apply t l = some node)
    (hmem : (∃ op ∈ ops, ∀ t, op.apply t l = some node) ∨ tree l = some node) :
    applyAll tree ops l = some node := by
  induction ops generalizing tree with
  | nil => exact hmem.resolve_left (by simp)
  | cons op ops ih =>
    obtain ⟨hfits, hrest⟩ := h
    refine ih hrest (fun o ho => hkeeps o (List.mem_cons_of_mem _ ho)) ?_
    obtain ⟨o, ho, hputs⟩ | htree := hmem
    · rcases List.mem_cons.1 ho with rfl | ho
      · exact .inr (hputs tree)
      · exact .inl ⟨o, ho, hputs⟩
    · exact .inr (hkeeps op List.mem_cons_self tree hfits htree)

theorem applyAll_dir (h : Passes tree ops) (hmem : .dir l ∈ ops ∨ tree l = some .dir) :
    applyAll tree ops l = some .dir := by
  refine applyAll_node h (fun op _ t hfits ht => ?_)
    (hmem.imp_left fun hop => ⟨_, hop, fun t => by simp [Op.apply]⟩)
  cases op with
  | dir l' => by_cases hl : l = l' <;> simp [Op.apply, hl, ht]
  | file l' bytes =>
    by_cases hl : l = l'
    · exact absurd (hl ▸ ht) hfits
    · simpa [Op.apply, hl] using ht

/-- A file of the plan is there in the end, if the plan has no other bytes for it. -/
theorem applyAll_file {bytes : List UInt8} (h : Passes tree ops)
    (hmem : .file l bytes ∈ ops ∨ tree l = some (.file bytes))
    (huniq : ∀ bytes', .file l bytes' ∈ ops → bytes' = bytes) :
    applyAll tree ops l = some (.file bytes) := by
  refine applyAll_node h (fun op hop t hfits ht => ?_)
    (hmem.imp_left fun hop => ⟨_, hop, fun t => by simp [Op.apply]⟩)
  cases op with
  | dir l' =>
    by_cases hl : l = l'
    · exact absurd (hl ▸ ht) (hfits bytes)
    · simpa [Op.apply, hl] using ht
  | file l' bytes' =>
    by_cases hl : l = l'
    · subst hl
      simp [Op.apply, huniq bytes' hop]
    · simpa [Op.apply, hl] using ht

end Needs

/-! ## The first thing that is not there -/

section First

variable {d : Disk} {l leaf : Location} {locations : List Location}

theorem keeps_dir_ensureDir (l leaf l' : Location) :
    Keeps (fun d => d.tree l = some .dir) (ensureDir leaf l') :=
  fun _ h => wp_mono (wp_ensureDir leaf l') (fun _ _ h' => h'.1.dirs l h) fun _ _ h' => h'.dirs l h

theorem keeps_dir_createDirAll (l : Location) (process : Process) (platform : Platform)
    (path : Path) : Keeps (fun d => d.tree l = some .dir) (createDirAll process platform path) :=
  keeps_forM fun l' _ => keeps_dir_ensureDir l _ l'

theorem keeps_dir_writeFile (l l' : Location) (bytes : List UInt8) :
    Keeps (fun d => d.tree l = some .dir) (writeFile l' bytes) :=
  fun _ h => wp_mono (wp_writeFile l' bytes) (fun _ _ h' => h'.1.dirs l h)
    fun _ _ h' => h'.dirs l h

/-- The next directory is in the way or cannot be created. -/
def Disk.Stops (d : Disk) (l : Location) : Prop :=
  (∃ bytes, d.tree l = some (.file bytes)) ∨ d.faults.headD false = true

variable {Q : PUnit → Disk → Prop} {E : String → Disk → Prop}

theorem wp_ensureDir_present (h : d.tree l = some .dir) : wp (ensureDir leaf l) d Q E ↔ Q () d := by
  unfold ensureDir
  rw [wp_bind, wp_get, h]
  rfl

section

variable (hfind : locations.find? (fun l => d.tree l ≠ some .dir) = some l)

include hfind

/-- Directories that are there already are passed over. -/
theorem wp_ensureDirs_first (h : ∀ rest : List Location,
      wp (ensureDir leaf l >>= fun _ => rest.forM (ensureDir leaf)) d Q E) :
    wp (locations.forM (ensureDir leaf)) d Q E := by
  induction locations with
  | nil => cases hfind
  | cons first rest ih =>
    by_cases hdir : d.tree first = some .dir
    · rw [List.find?_cons_of_neg (by simpa using hdir)] at hfind
      show wp (ensureDir leaf first >>= fun _ => rest.forM (ensureDir leaf)) d Q E
      rw [wp_bind, wp_ensureDir_present hdir]
      exact ih hfind
    · rw [List.find?_cons_of_pos (by simpa using hdir)] at hfind
      exact Option.some.inj hfind ▸ h rest

/-- Nothing has changed when the first of them stops. -/
theorem wp_ensureDirs_stops (hstops : d.Stops l) :
    wp (locations.forM (ensureDir leaf)) d (fun _ _ => False) fun _ d' => d'.tree = d.tree := by
  refine wp_ensureDirs_first hfind fun rest => ?_
  have hnot : d.tree l ≠ some .dir := by simpa using List.find?_some hfind
  unfold ensureDir
  rw [wp_bind, wp_bind, wp_get]
  cases hnode : d.tree l with
  | none =>
    dsimp only
    have hfault : d.faults.headD false = true := hstops.resolve_left fun ⟨bytes, h⟩ => by
      rw [hnode] at h
      cases h
    rw [wp_attemptIo_iff, if_pos hfault]
  | some node =>
    cases node with
    | dir => exact absurd hnode hnot
    | file bytes => exact rfl

/-- If it does not stop, it is there from then on, whatever comes after. -/
theorem wp_ensureDirs_goes (hstops : ¬ d.Stops l) :
    d.tree l = none ∧ wp (locations.forM (ensureDir leaf)) d (fun _ d' => d'.tree l = some .dir)
      fun _ d' => d'.tree l = some .dir := by
  have hnot : d.tree l ≠ some .dir := by simpa using List.find?_some hfind
  have hnone : d.tree l = none := by
    cases hnode : d.tree l with
    | none => rfl
    | some node =>
      cases node with
      | dir => exact absurd hnode hnot
      | file bytes => exact absurd (.inl ⟨bytes, hnode⟩) hstops
  refine ⟨hnone, wp_ensureDirs_first hfind fun rest => ?_⟩
  have hdir : wp (ensureDir leaf l) d (fun _ d' => d'.tree l = some .dir) fun _ _ => False := by
    unfold ensureDir
    rw [wp_bind, wp_get, hnone]
    dsimp only
    rw [wp_attemptIo_iff, if_neg fun hfault => hstops (.inr hfault)]
    exact Function.update_self _ _ _
  rw [wp_bind]
  exact wp_mono hdir (fun _ d₁ h₁ => keeps_forM (fun l' _ => keeps_dir_ensureDir l leaf l') d₁ h₁)
    fun _ _ h => h.elim

end

end First

end Files

end LlmNotch
