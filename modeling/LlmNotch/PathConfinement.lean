import LlmNotch.FileLock
import LlmNotch.SymbolicLinks

/-!
# Paths under a scope root

`validate_under_root` of the connectors, on a file tree that does not change : the root is
canonicalized, the components of the relative path are pushed one after the other and looked at
without following a link, and what comes out is canonicalized again.

The standard library drops a trailing `/` or `.` from the components of a path, and the system
does not. So the path that is returned may name a file where the root joined with the relative
path names nothing (`trailing_slash_differs`). Apart from this the two lead to the same place,
which is below the root and is not reached through a link or a special file
(`validate_under_root_confines`).
-/

namespace LlmNotch

namespace Connector

namespace PathSecurity

open Links

/-! ## Paths -/

/-- `std::path::Component`, on Unix. -/
inductive Component where
  | rootDir
  | curDir
  | parentDir
  | normal (part : String)
  deriving DecidableEq

/-- The component of a part between two `/`, unless it is at the start of a path. -/
def componentOf : List Char → Option Component
  | [] => none
  | ['.'] => none
  | ['.', '.'] => some .parentDir
  | part => some (.normal (String.ofList part))

/-- What the system takes a part between two `/` for. -/
def stepOf : List Char → Step
  | [] => .here
  | ['.'] => .here
  | ['.', '.'] => .up
  | part => .name (String.ofList part)

/-- `Path::is_absolute` -/
def isAbsolute (path : String) : Bool :=
  path.toList.head? = some '/'

/-- `Path::components` : a `.` is one only at the start of a relative path. -/
def components (path : String) : List Component :=
  let parts := path.toList.splitOn '/'
  if isAbsolute path then .rootDir :: parts.filterMap componentOf
  else if parts.head? = some ['.'] then .curDir :: parts.filterMap componentOf
  else parts.filterMap componentOf

def steps (path : String) : List Step :=
  (path.toList.splitOn '/').map stepOf

/-- `Path::join` -/
def join (path other : String) : String :=
  if isAbsolute other then other
  else if path = "" ∨ path.toList.getLast? = some '/' then path ++ other
  else path ++ "/" ++ other

/-- The text of an absolute path. -/
def display (path : Location) : String :=
  "/" ++ "/".intercalate path

/-! ## The system -/

/-- The text of an error of the system. -/
def errorText : Errno → String
  | .notFound => "No such file or directory (os error 2)"
  | .notDirectory => "Not a directory (os error 20)"
  | .loop => "Too many levels of symbolic links (os error 40)"

section Validation

variable (tree : FileTree) (links : ℕ)

/-- What a path in the working directory `cwd` leads to. -/
def resolve (cwd : Location) (path : String) : Except Errno Location :=
  if path = "" then .error .notFound
  else walk tree links (if isAbsolute path then [] else cwd) (steps path)

/-- `std::fs::canonicalize` of an absolute path. -/
def canonicalize (path : Location) : Except Errno Location :=
  walk tree links [] (path.map .name)

def rejectSpecialFileType (path : Location) : Node → Except ConnectorError Unit
  | .link _ => .error (.pathEscapesScope s!"symlink rejected: {display path}")
  | .fifo | .socket => .error (.pathEscapesScope s!"special file rejected: {display path}")
  | .dir | .file | .device => .ok ()

def lstatComponent (path : Location) : Except ConnectorError Unit :=
  match lstat tree links path with
  | .ok node => rejectSpecialFileType path node
  | .error .notFound => .ok ()
  | .error e => .error (.pathEscapesScope s!"lstat failed for {display path}: {errorText e}")

def rejectTraversal : Component → Except ConnectorError Unit
  | .parentDir | .rootDir => .error (.pathEscapesScope "path traversal rejected")
  | .curDir | .normal _ => .ok ()

def pushComponent (current : Location) : Component → Except ConnectorError Location
  | .normal part => do
    lstatComponent tree links (current ++ [part])
    return current ++ [part]
  | _ => .ok current

/-- The end of `validate_under_root`, after the components have been looked at. -/
def canonicalUnder (root current : Location) : Except ConnectorError Location :=
  match canonicalize tree links current with
  | .ok path =>
    if root.isPrefixOf path then .ok path
    else .error (.pathEscapesScope "resolved path escapes scope")
  | .error .notFound =>
    if root.isPrefixOf current then .ok current
    else .error (.pathEscapesScope "constructed path escapes scope")
  | .error e => .error (.pathEscapesScope s!"canonicalize failed: {errorText e}")

def validateUnderRoot (cwd : Location) (root relative : String) :
    Except ConnectorError Location :=
  match resolve tree links cwd root with
  | .error e => .error (.internal s!"cannot canonicalize scope root: {errorText e}")
  | .ok root => do
    if isAbsolute relative then throw (.pathEscapesScope "absolute paths are not allowed")
    (components relative).forM rejectTraversal
    let current ← (components relative).foldlM (pushComponent tree links) root
    canonicalUnder tree links root current

end Validation

/-! ## Steps and components -/

/-- The name a component adds to a path. -/
def Component.part : Component → Option String
  | .normal part => some part
  | _ => none

theorem part_componentOf (part : List Char) :
    (componentOf part).bind Component.part = (stepOf part).named := by
  unfold componentOf stepOf
  split <;> rfl

theorem componentOf_eq_parentDir {part : List Char} :
    componentOf part = some .parentDir ↔ stepOf part = .up := by
  unfold componentOf stepOf
  split <;> simp

variable {path other : String}

theorem filterMap_componentOf_subset {component : Component}
    (h : component ∈ (path.toList.splitOn '/').filterMap componentOf) :
    component ∈ components path := by
  unfold components
  dsimp only
  split
  · exact List.mem_cons_of_mem _ h
  · split
    · exact List.mem_cons_of_mem _ h
    · exact h

/-- The system goes up where the path has a `..`. -/
theorem parentDir_mem_components (h : .up ∈ steps path) : .parentDir ∈ components path := by
  obtain ⟨part, hpart, hup⟩ := List.mem_map.1 h
  exact filterMap_componentOf_subset
    (List.mem_filterMap.2 ⟨part, hpart, componentOf_eq_parentDir.2 hup⟩)

/-- The components of a path and its steps have the same names. -/
theorem filterMap_part_components (path : String) :
    (components path).filterMap Component.part = namesOf (steps path) := by
  have hparts : ∀ parts : List (List Char),
      (parts.filterMap componentOf).filterMap Component.part = namesOf (parts.map stepOf) := by
    intro parts
    rw [namesOf, List.filterMap_map, List.filterMap_filterMap]
    exact List.filterMap_congr fun part _ => part_componentOf part
  unfold components
  dsimp only
  split
  · exact hparts _
  · split
    · exact hparts _
    · exact hparts _

theorem steps_append_slash (path other : String) :
    steps (path ++ "/" ++ other) = steps path ++ steps other := by
  have htext : (path ++ "/" ++ other).toList = path.toList ++ '/' :: other.toList := by
    simp [String.toList_append]
  rw [steps, htext, List.splitOn_append_cons_self, List.map_append]
  rfl

theorem steps_ne_nil (path : String) : steps path ≠ [] := by
  simp [steps]

/-! ## The checks -/

section Checks

variable {tree : FileTree} {links : ℕ} {base current : Location}

/-- The node may be passed : it is no link, no fifo and no socket. -/
def Passable (node : Node) : Prop :=
  (∀ target, node ≠ .link target) ∧ node ≠ .fifo ∧ node ≠ .socket

theorem lstatComponent_of_node {node : Node} {path : Location}
    (h : lstatComponent tree links path = .ok ()) (hnode : tree.node path = some node)
    (hne : path ≠ []) : Passable node := by
  rw [lstatComponent, lstat_of_node hnode hne] at h
  cases node <;> simp_all [rejectSpecialFileType, Passable]

/-- What the components are checked for, one after the other. -/
theorem foldlM_pushComponent {components : List Component}
    (h : components.foldlM (pushComponent tree links) base = .ok current) :
    current = base ++ components.filterMap Component.part ∧
    ∀ before after, components.filterMap Component.part = before ++ after → before ≠ [] →
      lstatComponent tree links (base ++ before) = .ok () := by
  induction components generalizing base with
  | nil =>
    refine ⟨by simpa using (Except.ok.inj h).symm, fun before after heq hne => ?_⟩
    exact absurd (List.append_eq_nil_iff.1 heq.symm).1 hne
  | cons component components ih =>
    rw [List.foldlM_cons] at h
    cases component with
    | normal part =>
      cases hcheck : lstatComponent tree links (base ++ [part]) with
      | error e =>
        simp only [pushComponent, hcheck] at h
        cases h
      | ok done =>
        simp only [pushComponent, hcheck] at h
        obtain ⟨hcurrent, hchecks⟩ := ih h
        have hnames : (Component.normal part :: components).filterMap Component.part =
            part :: components.filterMap Component.part := rfl
        refine ⟨by rw [hcurrent, hnames, List.append_assoc]; rfl, ?_⟩
        intro before after heq hne
        obtain ⟨first, before, rfl⟩ := List.exists_cons_of_ne_nil hne
        rw [hnames] at heq
        obtain ⟨rfl, hrest⟩ := List.cons.inj heq
        by_cases hempty : before = []
        · rw [hempty]
          exact hcheck
        · have hcheck' := hchecks before after hrest hempty
          rwa [List.append_assoc] at hcheck'
    | rootDir => exact ih h
    | curDir => exact ih h
    | parentDir => exact ih h

/-- Below a place that is no link, the names that pass the checks lead through no link, or one
of them is missing. -/
theorem canonical_or_missing (hbase : Canonical tree base) {names : Location}
    (hchecks : ∀ before after, names = before ++ after → before ≠ [] →
      lstatComponent tree links (base ++ before) = .ok ()) :
    Canonical tree (base ++ names) ∨ Missing tree base names := by
  induction names using List.reverseRecOn with
  | nil => exact .inl (by rwa [List.append_nil])
  | append_singleton before name ih =>
    have hbefore := ih fun start after heq hne =>
      hchecks start (after ++ [name]) (by rw [heq, List.append_assoc]) hne
    rcases hbefore with ⟨node, hnode, hlink⟩ | ⟨start, missing, after, rfl, hdir, hmissing⟩
    · have hcheck := hchecks (before ++ [name]) [] (by simp) (by simp)
      by_cases hdir : node = .dir
      · subst hdir
        cases hname : tree.node (base ++ (before ++ [name])) with
        | none => exact .inr ⟨before, name, [], rfl, hnode, by rwa [List.append_assoc]⟩
        | some own =>
          exact .inl ⟨own, hname, (lstatComponent_of_node hcheck hname (by simp)).1⟩
      · exfalso
        rw [← List.append_assoc, lstatComponent, lstat_of_not_dir ⟨node, hnode, hlink⟩
          (by rw [hnode]; exact fun heq => hdir (Option.some.inj heq))] at hcheck
        cases hcheck
    · exact .inr ⟨start, missing, after ++ [name], by simp, hdir, hmissing⟩

/-- What comes out of the checks, from a root that is no link. -/
theorem foldlM_passes {components : List Component} (hbase : Canonical tree base)
    (h : components.foldlM (pushComponent tree links) base = .ok current) :
    current = base ++ components.filterMap Component.part ∧
    (Canonical tree current ∨ Missing tree base (components.filterMap Component.part)) ∧
    ∀ below node, below ≠ [] → base ++ below <+: current →
      tree.node (base ++ below) = some node → Passable node := by
  obtain ⟨rfl, hchecks⟩ := foldlM_pushComponent h
  refine ⟨rfl, canonical_or_missing hbase hchecks, fun below node hne hprefix hnode => ?_⟩
  obtain ⟨after, hafter⟩ := (List.prefix_append_right_inj base).1 hprefix
  exact lstatComponent_of_node (hchecks below after hafter.symm hne) hnode (by simp [hne])

/-- The end of the validation returns the path it was given. -/
theorem canonicalUnder_of_passes {names : Location}
    (h : Canonical tree (base ++ names) ∨ Missing tree base names) :
    canonicalUnder tree links base (base ++ names) = .ok (base ++ names) := by
  have hunder : base.isPrefixOf (base ++ names) = true :=
    List.isPrefixOf_iff_prefix.2 (List.prefix_append base names)
  unfold canonicalUnder canonicalize
  rcases h with hcanonical | ⟨before, name, after, rfl, hdir, hmissing⟩
  · rw [walk_names (show Canonical tree ([] ++ (base ++ names)) from hcanonical)]
    exact if_pos hunder
  · have hwalk : walk tree links [] ((base ++ (before ++ name :: after)).map .name) =
        .error .notFound :=
      walk_of_missing (by simp)
        ⟨base ++ before, name, after, by rw [namesOf_names]; simp, hdir, hmissing⟩
    rw [hwalk]
    exact if_pos hunder

end Checks

/-! ## What a validated path is -/

section Confined

variable {tree : FileTree} {links : ℕ} {cwd base path : Location} {root relative : String}

/-- The traversal check passes a path without a `..` that is not absolute. -/
theorem forM_rejectTraversal {components : List Component}
    (h : components.forM rejectTraversal = .ok ()) : .parentDir ∉ components := by
  induction components with
  | nil => simp
  | cons component components ih =>
    cases component with
    | parentDir => cases h
    | rootDir => cases h
    | curDir => simpa using ih h
    | normal part => simpa using ih h

theorem forM_rejectTraversal_error {components : List Component}
    (h : .parentDir ∈ components) : components.forM rejectTraversal =
      .error (.pathEscapesScope "path traversal rejected") := by
  induction components with
  | nil => cases h
  | cons component components ih =>
    cases component with
    | parentDir => rfl
    | rootDir => rfl
    | curDir => exact ih (by simpa using h)
    | normal part => exact ih (by simpa using h)

/-- What a path leads to is no link. -/
theorem canonical_of_resolve {text : String} (h : resolve tree links cwd text = .ok base) :
    Canonical tree base := by
  unfold resolve at h
  split at h
  · cases h
  · obtain ⟨step, rest, hsteps⟩ := List.exists_cons_of_ne_nil (steps_ne_nil text)
    rw [hsteps] at h
    exact canonical_of_walk (canonical_of_dir (walk_cons_cases h).1) h

theorem isAbsolute_append {text : String} (h : text ≠ "") (other : String) :
    isAbsolute (text ++ other) = isAbsolute text := by
  have hne : text.toList ≠ [] := fun heq => h (String.toList_eq_nil_iff.1 heq)
  simp only [isAbsolute, String.toList_append, List.head?_append_of_ne_nil _ hne]

/-- A path that ends in `/` has one more step than before it. -/
theorem steps_of_ends_slash {text : String} (h : text.toList.getLast? = some '/')
    (other : String) :
    ∃ before, steps text = before ++ [.here] ∧ steps (text ++ other) = before ++ steps other := by
  obtain ⟨start, hstart⟩ := List.getLast?_eq_some_iff.1 h
  refine ⟨(start.splitOn '/').map stepOf, ?_, ?_⟩
  · rw [steps, hstart, List.splitOn_append_cons_self, List.map_append]
    rfl
  · rw [steps, String.toList_append, hstart, List.append_assoc, List.singleton_append,
      List.splitOn_append_cons_self, List.map_append]
    rfl

/-- A joined path is walked from where its first part leads to. -/
theorem resolve_join (h : resolve tree links cwd root = .ok base)
    (hrelative : isAbsolute relative = false) :
    ∃ left, resolve tree links cwd (join root relative) = walk tree left base (steps relative) := by
  have hroot : root ≠ "" := by
    rintro rfl
    cases h
  rw [resolve, if_neg hroot] at h
  have hjoined : ∀ rest : String, resolve tree links cwd (root ++ rest) =
      walk tree links (if isAbsolute root then [] else cwd) (steps (root ++ rest)) := by
    intro rest
    rw [resolve, if_neg (by simp [hroot]), isAbsolute_append hroot]
  rw [join, if_neg (by simp [hrelative])]
  by_cases hslash : root.toList.getLast? = some '/'
  · obtain ⟨before, hsteps, hall⟩ := steps_of_ends_slash hslash relative
    rw [hsteps] at h
    obtain ⟨between, left, hbefore, hlast⟩ := walk_split h
    have hdir := (walk_cons_cases hlast).1
    rw [walk_here hdir, walk_nil] at hlast
    cases hlast
    rw [if_pos (.inr hslash), hjoined, hall]
    exact walk_append hbefore (steps relative)
  · rw [if_neg (by simp [hroot, hslash]), String.append_assoc, hjoined, ← String.append_assoc,
      steps_append_slash]
    exact walk_append h (steps relative)

/-- What the names of a validated path lead to, and what the steps of the relative path do. -/
theorem walk_steps {names : Location} (hup : .up ∉ steps relative)
    (hnames : namesOf (steps relative) = names)
    (h : Canonical tree (base ++ names) ∨ Missing tree base names) (left : ℕ) :
    walk tree left base (steps relative) = canonicalize tree links (base ++ names) ↔
      ¬((steps relative).getLast? = some .here ∧
        ∃ node, tree.node (base ++ names) = some node ∧ node ≠ .dir) := by
  subst hnames
  rcases h with ⟨node, hnode, hlink⟩ | hmissing
  · have hcanonical : canonicalize tree links (base ++ namesOf (steps relative)) =
        .ok (base ++ namesOf (steps relative)) :=
      walk_names (show Canonical tree ([] ++ (base ++ namesOf (steps relative))) from
        ⟨node, hnode, hlink⟩)
    rw [walk_of_node hup hnode hlink, hcanonical, hnode]
    by_cases hend : (steps relative).getLast? = some .here ∧ node ≠ .dir
    · rw [if_pos hend]
      simp [hend]
    · rw [if_neg hend]
      simpa using hend
  · have hcanonical : canonicalize tree links (base ++ namesOf (steps relative)) =
        .error .notFound := by
      obtain ⟨before, name, after, heq, hdir, hname⟩ := hmissing
      refine walk_of_missing (by simp) ⟨base ++ before, name, after, ?_, hdir, hname⟩
      rw [namesOf_names, heq, List.append_assoc]
    rw [walk_of_missing hup hmissing, hcanonical, hmissing.node_eq_none]
    simp

/-- The relative path ends in a `/` or in a `.`, or is empty, and `path` is no directory. -/
def AsksForDir (tree : FileTree) (relative : String) (path : Location) : Prop :=
  (steps relative).getLast? = some .here ∧ ∃ node, tree.node path = some node ∧ node ≠ .dir

/-- What a successful validation has done. -/
theorem validateUnderRoot_ok (h : validateUnderRoot tree links cwd root relative = .ok path) :
    ∃ base, resolve tree links cwd root = .ok base ∧ isAbsolute relative = false ∧
      .parentDir ∉ components relative ∧
      (components relative).foldlM (pushComponent tree links) base = .ok path := by
  unfold validateUnderRoot at h
  cases hroot : resolve tree links cwd root with
  | error e =>
    rw [hroot] at h
    cases h
  | ok base =>
    cases habsolute : isAbsolute relative with
    | true =>
      simp only [hroot, habsolute] at h
      cases h
    | false =>
      cases htraversal : (components relative).forM rejectTraversal with
      | error e =>
        simp only [hroot, habsolute, htraversal] at h
        cases h
      | ok done =>
        cases hfold : (components relative).foldlM (pushComponent tree links) base with
        | error e =>
          simp only [hroot, habsolute, htraversal, hfold] at h
          cases h
        | ok current =>
          simp only [hroot, habsolute, htraversal, hfold] at h
          have hend : canonicalUnder tree links base current = .ok path := h
          obtain ⟨rfl, hpasses, -⟩ := foldlM_passes (canonical_of_resolve hroot) hfold
          rw [canonicalUnder_of_passes hpasses] at hend
          rw [← Except.ok.inj hend]
          exact ⟨base, rfl, rfl, forM_rejectTraversal htraversal, hfold⟩

/-- A path that is returned is under the root, and no link, fifo or socket is on the way to it.
It leads to the same place as the root joined with the relative path, unless that asks for a
directory. Absolute paths and paths with a `..` are rejected. -/
theorem validate_under_root_confines (tree : FileTree) (links : ℕ) (cwd : Location)
    (root relative : String) :
    (∀ path, validateUnderRoot tree links cwd root relative = .ok path →
      ∃ base, resolve tree links cwd root = .ok base ∧ base <+: path ∧
        (∀ below node, below ≠ [] → base ++ below <+: path →
          tree.node (base ++ below) = some node → Passable node) ∧
        (resolve tree links cwd (join root relative) = canonicalize tree links path ↔
          ¬AsksForDir tree relative path)) ∧
    ∀ base, resolve tree links cwd root = .ok base →
      (isAbsolute relative = true → validateUnderRoot tree links cwd root relative =
        .error (.pathEscapesScope "absolute paths are not allowed")) ∧
      (isAbsolute relative = false → .parentDir ∈ components relative →
        validateUnderRoot tree links cwd root relative =
          .error (.pathEscapesScope "path traversal rejected")) := by
  refine ⟨fun path h => ?_, fun base hroot => ⟨fun habsolute => ?_, fun habsolute hparent => ?_⟩⟩
  · obtain ⟨base, hroot, habsolute, hparent, hfold⟩ := validateUnderRoot_ok h
    obtain ⟨rfl, hpasses, hplain⟩ := foldlM_passes (canonical_of_resolve hroot) hfold
    have hup : .up ∉ steps relative := fun hmem => hparent (parentDir_mem_components hmem)
    obtain ⟨left, hjoin⟩ := resolve_join hroot habsolute
    refine ⟨base, hroot, List.prefix_append _ _, hplain, ?_⟩
    rw [hjoin]
    exact walk_steps hup (filterMap_part_components relative).symm hpasses left
  · simp only [validateUnderRoot, hroot, habsolute]
    rfl
  · simp only [validateUnderRoot, hroot, habsolute]
    rw [forM_rejectTraversal_error hparent]
    rfl

end Confined

/-! ## A home with a link out of it -/

/-- A file, a link and nothing else in a home directory. -/
def homeNode : Location → Option Node
  | [] | ["home"] | ["home", "u"] => some .dir
  | ["home", "u", "hooks.json"] => some .file
  | ["home", "u", "etc"] => some (.link ⟨true, [.name "etc"]⟩)
  | _ => none

def homeTree : FileTree where
  node := homeNode
  root := rfl
  closed := by
    intro location name h
    rcases location with _ | ⟨a, _ | ⟨b, _ | ⟨c, _ | ⟨d, rest⟩⟩⟩⟩
    · rfl
    · simp only [List.cons_append, List.nil_append, homeNode] at h
      split at h <;> simp_all [homeNode]
    · simp only [List.cons_append, List.nil_append, homeNode] at h
      split at h <;> simp_all [homeNode]
    · simp only [List.cons_append, List.nil_append, homeNode, Option.isSome_none,
        Bool.false_eq_true] at h
    · simp only [List.cons_append, homeNode, Option.isSome_none, Bool.false_eq_true] at h

theorem home_root : resolve homeTree 40 [] "/home/u" = .ok ["home", "u"] := by
  have hsteps : steps "/home/u" = [.here, .name "home", .name "u"] := by decide
  have habsolute : isAbsolute "/home/u" = true := by decide
  rw [resolve, if_neg (by decide), hsteps, habsolute]
  rfl

theorem home_valid {relative : String} (habsolute : isAbsolute relative = false)
    (hcomponents : components relative = [.normal "hooks.json"]) :
    validateUnderRoot homeTree 40 [] "/home/u" relative = .ok ["home", "u", "hooks.json"] := by
  rw [validateUnderRoot, home_root]
  simp only [habsolute, hcomponents]
  rfl

theorem validate_under_root_confines_sample :
    validateUnderRoot homeTree 40 [] "/home/u" "hooks.json" =
      .ok ["home", "u", "hooks.json"] ∧
    ∃ base, resolve homeTree 40 [] "/home/u" = .ok base ∧
      base <+: ["home", "u", "hooks.json"] := by
  have hvalid : validateUnderRoot homeTree 40 [] "/home/u" "hooks.json" =
      .ok ["home", "u", "hooks.json"] := home_valid (by decide) (by decide)
  obtain ⟨base, hbase, hunder, -, -⟩ :=
    (validate_under_root_confines homeTree 40 [] "/home/u" "hooks.json").1 _ hvalid
  exact ⟨hvalid, base, hbase, hunder⟩

/-- A file is validated under a path that the system finds nothing at. -/
theorem trailing_slash_differs :
    validateUnderRoot homeTree 40 [] "/home/u" "hooks.json/" =
      .ok ["home", "u", "hooks.json"] ∧
    canonicalize homeTree 40 ["home", "u", "hooks.json"] = .ok ["home", "u", "hooks.json"] ∧
    resolve homeTree 40 [] (join "/home/u" "hooks.json/") = .error .notDirectory := by
  refine ⟨home_valid (by decide) (by decide), rfl, ?_⟩
  obtain ⟨left, hjoin⟩ := resolve_join home_root
    (show isAbsolute "hooks.json/" = false by decide)
  have hsteps : steps "hooks.json/" = [.name "hooks.json", .here] := by decide
  rw [hjoin, hsteps, walk_name rfl rfl (fun target heq => by cases heq),
    walk_not_dir (fun heq => by cases heq)]

end PathSecurity

end Connector

end LlmNotch
