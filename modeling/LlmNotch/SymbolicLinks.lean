import Mathlib.Data.List.Infix

/-!
# File trees with symbolic links

A tree gives the node at a location, which is a list of names below the root (`FileTree`). A path
is walked one step after the other, and a link is replaced by the steps of its target (`walk`). A
walk follows a bounded number of links.

A location that a walk ends at is `Canonical` : directories lead to it, and it is no link itself
(`canonical_of_walk`). The names of such a location are walked without following a link
(`walk_names`), and a walk can be cut anywhere (`walk_append`).
-/

namespace LlmNotch

namespace Links

/-- A step of a path : `.`, `..` or a name. -/
inductive Step where
  | here
  | up
  | name (name : String)
  deriving DecidableEq

/-- The target of a link, from the root or from the directory of the link. -/
structure Target where
  absolute : Bool
  steps : List Step
  deriving DecidableEq

inductive Node where
  | dir
  | file
  | link (target : Target)
  | fifo
  | socket
  | device
  deriving DecidableEq

inductive Errno where
  | notFound
  | notDirectory
  | loop
  deriving DecidableEq

abbrev Location := List String

/-- The root is a directory, and whatever is there is in a directory. -/
structure FileTree where
  node : Location → Option Node
  root : node [] = some .dir
  closed : ∀ location name, (node (location ++ [name])).isSome = true → node location = some .dir

/-- The target of a link in the directory `location`, and where it starts. -/
def Target.start (target : Target) (location : Location) : Location :=
  if target.absolute then [] else location

section Walk

variable (tree : FileTree)

/-- `follow` walks the steps that begin with the target of a link. -/
def walkWith (follow : Location → List Step → Except Errno Location) :
    Location → List Step → Except Errno Location
  | location, [] => .ok location
  | location, step :: rest =>
    if tree.node location ≠ some .dir then .error .notDirectory
    else match step with
      | .here => walkWith follow location rest
      | .up => walkWith follow location.dropLast rest
      | .name name =>
        match tree.node (location ++ [name]) with
        | none => .error .notFound
        | some (.link target) => follow (target.start location) (target.steps ++ rest)
        | some _ => walkWith follow (location ++ [name]) rest

/-- Walk the steps from a location, and follow at most `links` links. -/
def walk : ℕ → Location → List Step → Except Errno Location
  | 0 => walkWith tree fun _ _ => .error .loop
  | links + 1 => walkWith tree (walk links)

/-- The node of a location, itself not followed. -/
def lstat (links : ℕ) (location : Location) : Except Errno Node :=
  match location.getLast? with
  | none => .ok .dir
  | some name =>
    match walk tree links [] (location.dropLast.map .name) with
    | .error e => .error e
    | .ok parent =>
      if tree.node parent ≠ some .dir then .error .notDirectory
      else match tree.node (parent ++ [name]) with
        | none => .error .notFound
        | some node => .ok node

end Walk

section Lemmas

variable {tree : FileTree} {links : ℕ} {location base found : Location} {steps more : List Step}

@[simp]
theorem walk_nil (tree : FileTree) (links : ℕ) (location : Location) :
    walk tree links location [] = .ok location := by
  cases links <;> rfl

theorem walk_not_dir {step : Step} (h : tree.node location ≠ some .dir) :
    walk tree links location (step :: steps) = .error .notDirectory := by
  cases links <;> exact if_pos h

theorem walk_here (h : tree.node location = some .dir) :
    walk tree links location (.here :: steps) = walk tree links location steps := by
  cases links <;> exact if_neg (not_not_intro h)

theorem walk_up (h : tree.node location = some .dir) :
    walk tree links location (.up :: steps) = walk tree links location.dropLast steps := by
  cases links <;> exact if_neg (not_not_intro h)

variable {name : String} {node : Node}

theorem walk_missing (h : tree.node location = some .dir)
    (hname : tree.node (location ++ [name]) = none) :
    walk tree links location (.name name :: steps) = .error .notFound := by
  cases links <;> simp [walk, walkWith, h, hname]

theorem walk_link {target : Target} (h : tree.node location = some .dir)
    (hname : tree.node (location ++ [name]) = some (.link target)) :
    walk tree links location (.name name :: steps) = match links with
      | 0 => .error .loop
      | links + 1 => walk tree links (target.start location) (target.steps ++ steps) := by
  cases links <;> simp [walk, walkWith, h, hname]

/-- Whatever is not a link is walked into; the next step says whether it is a directory. -/
theorem walk_name (h : tree.node location = some .dir)
    (hname : tree.node (location ++ [name]) = some node) (hlink : ∀ target, node ≠ .link target) :
    walk tree links location (.name name :: steps) =
      walk tree links (location ++ [name]) steps := by
  cases links <;> cases node <;> simp_all [walk, walkWith]

/-- The ways a walk that succeeds can begin. -/
theorem walk_cons_cases {step : Step} (h : walk tree links location (step :: steps) = .ok found) :
    tree.node location = some .dir ∧
    ((step = .here ∧ walk tree links location steps = .ok found) ∨
     (step = .up ∧ walk tree links location.dropLast steps = .ok found) ∨
     (∃ name node, step = .name name ∧ tree.node (location ++ [name]) = some node ∧
        (∀ target, node ≠ .link target) ∧
        walk tree links (location ++ [name]) steps = .ok found) ∨
     ∃ name target left, step = .name name ∧ links = left + 1 ∧
        tree.node (location ++ [name]) = some (.link target) ∧
        walk tree left (target.start location) (target.steps ++ steps) = .ok found) := by
  by_cases hdir : tree.node location = some .dir
  · refine ⟨hdir, ?_⟩
    cases step with
    | here =>
      rw [walk_here hdir] at h
      exact .inl ⟨rfl, h⟩
    | up =>
      rw [walk_up hdir] at h
      exact .inr (.inl ⟨rfl, h⟩)
    | name name =>
      cases hname : tree.node (location ++ [name]) with
      | none =>
        rw [walk_missing hdir hname] at h
        cases h
      | some node =>
        by_cases hlink : ∃ target, node = .link target
        · obtain ⟨target, rfl⟩ := hlink
          rw [walk_link hdir hname] at h
          cases links with
          | zero => cases h
          | succ left => exact .inr (.inr (.inr ⟨name, target, left, rfl, rfl, hname, h⟩))
        · have hlink' : ∀ target, node ≠ .link target := fun target heq => hlink ⟨target, heq⟩
          rw [walk_name hdir hname hlink'] at h
          exact .inr (.inr (.inl ⟨name, node, rfl, hname, hlink', h⟩))
  · rw [walk_not_dir hdir] at h
    cases h

/-- A walk can be cut where it has ended; the rest of it has fewer links left. -/
theorem walk_append (h : walk tree links location steps = .ok found) (more : List Step) :
    ∃ left, walk tree links location (steps ++ more) = walk tree left found more := by
  induction links using Nat.strong_induction_on generalizing location steps with
  | _ links ihl =>
  induction steps generalizing location with
  | nil =>
    obtain rfl : location = found := Except.ok.inj ((walk_nil tree links location).symm.trans h)
    exact ⟨links, rfl⟩
  | cons step steps ih =>
    obtain ⟨hdir, ⟨rfl, hrest⟩ | ⟨rfl, hrest⟩ | ⟨name, node, rfl, hname, hlink, hrest⟩ |
      ⟨name, target, left, rfl, rfl, hname, hrest⟩⟩ := walk_cons_cases h
    · rw [List.cons_append, walk_here hdir]
      exact ih hrest
    · rw [List.cons_append, walk_up hdir]
      exact ih hrest
    · rw [List.cons_append, walk_name hdir hname hlink]
      exact ih hrest
    · rw [List.cons_append, walk_link hdir hname]
      dsimp only
      rw [← List.append_assoc]
      exact ihl left (Nat.lt_succ_self left) hrest

/-- A walk that succeeds has passed through where its first part ends. -/
theorem walk_split (h : walk tree links location (steps ++ more) = .ok found) :
    ∃ between left, walk tree links location steps = .ok between ∧
      walk tree left between more = .ok found := by
  induction links using Nat.strong_induction_on generalizing location steps with
  | _ links ihl =>
  induction steps generalizing location with
  | nil => exact ⟨location, links, walk_nil tree links location, h⟩
  | cons step steps ih =>
    rw [List.cons_append] at h
    obtain ⟨hdir, ⟨rfl, hrest⟩ | ⟨rfl, hrest⟩ | ⟨name, node, rfl, hname, hlink, hrest⟩ |
      ⟨name, target, left, rfl, rfl, hname, hrest⟩⟩ := walk_cons_cases h
    · rw [walk_here hdir]
      exact ih hrest
    · rw [walk_up hdir]
      exact ih hrest
    · rw [walk_name hdir hname hlink]
      exact ih hrest
    · rw [walk_link hdir hname]
      rw [← List.append_assoc] at hrest
      exact ihl left (Nat.lt_succ_self left) hrest

/-! ## Where walks end -/

/-- Something is at the location, and it is no link. -/
def Canonical (tree : FileTree) (location : Location) : Prop :=
  ∃ node, tree.node location = some node ∧ ∀ target, node ≠ .link target

theorem canonical_of_dir (h : tree.node location = some .dir) : Canonical tree location :=
  ⟨.dir, h, fun target heq => by cases heq⟩

theorem FileTree.dir_of_append {rest : Location} (h : (tree.node (location ++ rest)).isSome = true)
    (hrest : rest ≠ []) : tree.node location = some .dir := by
  induction rest using List.reverseRecOn with
  | nil => exact absurd rfl hrest
  | append_singleton rest name ih =>
    rw [← List.append_assoc] at h
    have hdir := tree.closed _ _ h
    by_cases hempty : rest = []
    · rwa [hempty, List.append_nil] at hdir
    · exact ih (by rw [hdir]; rfl) hempty

theorem Canonical.dropLast (h : Canonical tree location) : Canonical tree location.dropLast := by
  obtain ⟨node, hnode, hlink⟩ := h
  induction location using List.reverseRecOn with
  | nil => exact ⟨node, hnode, hlink⟩
  | append_singleton location name =>
    rw [List.dropLast_concat]
    exact canonical_of_dir (tree.closed _ _ (by rw [hnode]; rfl))

theorem Canonical.start {target : Target} (h : tree.node location = some .dir) :
    Canonical tree (target.start location) := by
  unfold Target.start
  split
  · exact canonical_of_dir tree.root
  · exact canonical_of_dir h

/-- A walk ends at something that is no link. -/
theorem canonical_of_walk (hstart : Canonical tree location)
    (h : walk tree links location steps = .ok found) : Canonical tree found := by
  induction links using Nat.strong_induction_on generalizing location steps with
  | _ links ihl =>
  induction steps generalizing location with
  | nil =>
    obtain rfl : location = found := Except.ok.inj ((walk_nil tree links location).symm.trans h)
    exact hstart
  | cons step steps ih =>
    obtain ⟨hdir, ⟨rfl, hrest⟩ | ⟨rfl, hrest⟩ | ⟨name, node, rfl, hname, hlink, hrest⟩ |
      ⟨name, target, left, rfl, rfl, hname, hrest⟩⟩ := walk_cons_cases h
    · exact ih hstart hrest
    · exact ih hstart.dropLast hrest
    · exact ih ⟨node, hname, hlink⟩ hrest
    · exact ihl left (Nat.lt_succ_self left) (Canonical.start hdir) hrest

/-- The names of a location that is no link are walked as they are. -/
theorem walk_names {rest : Location} (h : Canonical tree (base ++ rest)) :
    walk tree links base (rest.map .name) = .ok (base ++ rest) := by
  induction rest generalizing base with
  | nil => rw [List.map_nil, walk_nil, List.append_nil]
  | cons name rest ih =>
    have hsplit : base ++ name :: rest = (base ++ [name]) ++ rest := by simp
    obtain ⟨node, hnode, hlink⟩ := h
    have hdir : tree.node base = some .dir :=
      FileTree.dir_of_append (by rw [hnode]; rfl) (List.cons_ne_nil name rest)
    rw [hsplit] at hnode
    have hname : ∃ own, tree.node (base ++ [name]) = some own ∧ ∀ target, own ≠ .link target := by
      by_cases hempty : rest = []
      · exact ⟨node, by rwa [hempty, List.append_nil] at hnode, hlink⟩
      · exact ⟨.dir, FileTree.dir_of_append (by rw [hnode]; rfl) hempty, fun target heq => by
          cases heq⟩
    obtain ⟨own, hown, hown'⟩ := hname
    rw [List.map_cons, walk_name hdir hown hown', hsplit]
    exact ih ⟨node, hnode, hlink⟩

/-- The first of the names that are not there is in a directory. -/
def Missing (tree : FileTree) (base names : Location) : Prop :=
  ∃ before name after, names = before ++ name :: after ∧
    tree.node (base ++ before) = some .dir ∧ tree.node (base ++ before ++ [name]) = none

/-- The name a step adds to a location. -/
def Step.named : Step → Option String
  | .name text => some text
  | .here | .up => none

/-- The names among the steps. -/
def namesOf (steps : List Step) : Location :=
  steps.filterMap Step.named

@[simp]
theorem namesOf_name (name : String) (steps : List Step) :
    namesOf (.name name :: steps) = name :: namesOf steps :=
  rfl

@[simp]
theorem namesOf_here (steps : List Step) : namesOf (.here :: steps) = namesOf steps :=
  rfl

theorem namesOf_names (names : Location) : namesOf (names.map .name) = names := by
  rw [namesOf, List.filterMap_map]
  exact List.filterMap_some

theorem Missing.node_eq_none {names : Location} (h : Missing tree base names) :
    tree.node (base ++ names) = none := by
  obtain ⟨before, name, after, rfl, -, hmissing⟩ := h
  by_contra hthere
  have hsplit : base ++ (before ++ name :: after) = (base ++ before ++ [name]) ++ after := by simp
  rw [hsplit] at hthere
  by_cases hempty : after = []
  · rw [hempty, List.append_nil] at hthere
    exact hthere hmissing
  · rw [FileTree.dir_of_append (Option.isSome_iff_ne_none.2 hthere) hempty] at hmissing
    cases hmissing

/-- A walk without `..` finds that a name is missing. -/
theorem walk_of_missing (hup : .up ∉ steps) (h : Missing tree base (namesOf steps)) :
    walk tree links base steps = .error .notFound := by
  induction steps generalizing base with
  | nil =>
    obtain ⟨before, name, after, hnames, -⟩ := h
    cases before <;> cases hnames
  | cons step steps ih =>
    have hup' : .up ∉ steps := fun hmem => hup (List.mem_cons_of_mem step hmem)
    have hdir : tree.node base = some .dir := by
      obtain ⟨before, name, after, -, hdir, -⟩ := h
      by_cases hempty : before = []
      · rwa [hempty, List.append_nil] at hdir
      · exact FileTree.dir_of_append (by rw [hdir]; rfl) hempty
    cases step with
    | here =>
      rw [walk_here hdir]
      exact ih hup' h
    | up => exact absurd List.mem_cons_self hup
    | name name =>
      obtain ⟨before, missing, after, hnames, hbefore, hmissing⟩ := h
      rw [namesOf_name] at hnames
      cases before with
      | nil =>
        obtain ⟨rfl, -⟩ := List.cons.inj hnames
        rw [List.append_nil] at hmissing
        exact walk_missing hdir hmissing
      | cons first before =>
        obtain ⟨rfl, hrest⟩ := List.cons.inj hnames
        have hsplit : base ++ name :: before = (base ++ [name]) ++ before := by simp
        rw [hsplit] at hbefore hmissing
        have hname : tree.node (base ++ [name]) = some .dir := by
          by_cases hempty : before = []
          · rwa [hempty, List.append_nil] at hbefore
          · exact FileTree.dir_of_append (by rw [hbefore]; rfl) hempty
        rw [walk_name hdir hname fun target heq => by cases heq]
        exact ih hup' ⟨before, missing, after, hrest, hbefore, hmissing⟩

/-- A walk without `..` to something that is there. It fails only if it is no directory and the
path asks for one at its end. -/
theorem walk_of_node (hup : .up ∉ steps) (hnode : tree.node (base ++ namesOf steps) = some node)
    (hlink : ∀ target, node ≠ .link target) :
    walk tree links base steps =
      if steps.getLast? = some .here ∧ node ≠ .dir then .error .notDirectory
      else .ok (base ++ namesOf steps) := by
  induction steps generalizing base with
  | nil =>
    rw [walk_nil, if_neg (by simp)]
    exact congrArg _ (List.append_nil base).symm
  | cons step steps ih =>
    have hup' : .up ∉ steps := fun hmem => hup (List.mem_cons_of_mem step hmem)
    cases step with
    | here =>
      rw [namesOf_here] at hnode ⊢
      by_cases hdir : tree.node base = some .dir
      · rw [walk_here hdir, ih hup' hnode]
        cases steps with
        | nil =>
          have hsame : node = .dir := by
            rw [show namesOf [] = [] from rfl, List.append_nil, hdir] at hnode
            exact (Option.some.inj hnode).symm
          simp [hsame]
        | cons other steps => rw [List.getLast?_cons_cons]
      · have hnone : namesOf steps = [] := by
          by_contra hsome
          exact hdir (FileTree.dir_of_append (by rw [hnode]; rfl) hsome)
        have hlast : (Step.here :: steps).getLast? = some .here := by
          have hall : ∀ step ∈ steps, step = .here := by
            intro step hstep
            cases step with
            | here => rfl
            | up => exact absurd hstep hup'
            | name name =>
              have hmem : name ∈ namesOf steps := List.mem_filterMap.2 ⟨.name name, hstep, rfl⟩
              rw [hnone] at hmem
              cases hmem
          obtain ⟨last, hlast⟩ : ∃ last, (Step.here :: steps).getLast? = some last :=
            Option.isSome_iff_exists.1 (by simp)
          rcases List.mem_cons.1 (List.mem_of_getLast? hlast) with rfl | hmem
          · exact hlast
          · rw [hlast, hall last hmem]
        have hother : node ≠ .dir := by
          rintro rfl
          rw [hnone, List.append_nil] at hnode
          exact hdir hnode
        rw [walk_not_dir hdir, if_pos ⟨hlast, hother⟩]
    | up => exact absurd List.mem_cons_self hup
    | name name =>
      have hsplit : base ++ namesOf (.name name :: steps) = (base ++ [name]) ++ namesOf steps := by
        simp
      have hdir : tree.node base = some .dir :=
        FileTree.dir_of_append (by rw [hnode]; rfl) (by simp)
      rw [hsplit] at hnode ⊢
      have hname : ∃ own, tree.node (base ++ [name]) = some own ∧
          ∀ target, own ≠ .link target := by
        by_cases hempty : namesOf steps = []
        · exact ⟨node, by rwa [hempty, List.append_nil] at hnode, hlink⟩
        · exact ⟨.dir, FileTree.dir_of_append (by rw [hnode]; rfl) hempty, fun target heq => by
            cases heq⟩
      obtain ⟨own, hown, hown'⟩ := hname
      rw [walk_name hdir hown hown', ih hup' hnode]
      cases steps with
      | nil => simp
      | cons other steps => rw [List.getLast?_cons_cons]

/-- The node of what is there, if it is not the root. -/
theorem lstat_of_node (h : tree.node location = some node) (hne : location ≠ []) :
    lstat tree links location = .ok node := by
  induction location using List.reverseRecOn with
  | nil => exact absurd rfl hne
  | append_singleton parent name =>
    have hdir := tree.closed _ _ (show (tree.node (parent ++ [name])).isSome = true by rw [h]; rfl)
    have hwalk : walk tree links [] (parent.map .name) = .ok parent :=
      walk_names (show Canonical tree ([] ++ parent) from canonical_of_dir hdir)
    simp only [lstat, List.getLast?_concat, List.dropLast_concat, hwalk, hdir, ne_eq,
      not_true_eq_false, if_false, h]

/-- Nothing is below what is no directory. -/
theorem lstat_of_not_dir (hcanonical : Canonical tree location)
    (h : tree.node location ≠ some .dir) :
    lstat tree links (location ++ [name]) = .error .notDirectory := by
  have hwalk : walk tree links [] (location.map .name) = .ok location :=
    walk_names (show Canonical tree ([] ++ location) from hcanonical)
  simp only [lstat, List.getLast?_concat, List.dropLast_concat, hwalk]
  exact if_pos h

end Lemmas

end Links

end LlmNotch
