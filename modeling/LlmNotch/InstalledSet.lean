import LlmNotch.AddingFolds
import LlmNotch.ConnectorUndo

/-!
# What is installed

An install compares commands and adds what is missing : an entry to its slot
(`adds_pushEntry`), a hook to its group (`adds_pushHook`), the hooks of a template group to the
first group with its matcher (`adds_mergeGroup`). It takes nothing away, so a command of an
older helper stays next to the new one. A repair takes all managed commands out first, and then
has exactly those of the template (`installed_exact`).
-/

namespace LlmNotch

namespace Connector

open Json

/-! ## Managed commands -/

/-- The managed commands of a list of entries or hooks. -/
def managedBy (command : Json → Option String) (items : List Json) : List String :=
  (items.filterMap command).filter isManagedCommand

section ManagedBy

variable {command : Json → Option String} {items : List Json} {item : Json} {c : String}

theorem managedBy_append (xs ys : List Json) :
    managedBy command (xs ++ ys) = managedBy command xs ++ managedBy command ys := by
  simp [managedBy]

theorem managedBy_nil : managedBy command [] = [] := rfl

theorem managedBy_flatMap (items : List Json) :
    items.flatMap (fun item => managedBy command [item]) = managedBy command items := by
  induction items with
  | nil => rfl
  | cons item rest ih =>
    rw [List.flatMap_cons, ih, ← managedBy_append, List.singleton_append]

theorem managedBy_of_some (h : command item = some c) (hmanaged : isManagedCommand c = true) :
    managedBy command [item] = [c] := by
  simp [managedBy, h, hmanaged]

theorem managedBy_of_not (h : ∀ c, command item = some c → isManagedCommand c = false) :
    managedBy command [item] = [] := by
  cases hitem : command item with
  | none => simp [managedBy, hitem]
  | some c => simp [managedBy, hitem, h c hitem]

theorem mem_managedBy (hmanaged : isManagedCommand c = true) :
    c ∈ managedBy command items ↔ ∃ item ∈ items, command item = some c := by
  simp [managedBy, hmanaged]

theorem managedBy_filter_managed :
    managedBy command (items.filter fun item => (command item).any isManagedCommand) =
      managedBy command items := by
  induction items with
  | nil => rfl
  | cons item rest ih =>
    rw [List.filter_cons, ← List.singleton_append (l := rest), managedBy_append]
    split_ifs with hitem
    · rw [← List.singleton_append, managedBy_append, ih]
    · have hnone : managedBy command [item] = [] :=
        managedBy_of_not fun c hc => by simpa [hc] using hitem
      rw [hnone, ih, List.nil_append]

theorem managedBy_filter_foreign :
    managedBy command (items.filter fun item => !(command item).any isManagedCommand) = [] := by
  refine List.filter_eq_nil_iff.2 fun c hc => ?_
  obtain ⟨item, hitem, hcommand⟩ := List.mem_filterMap.1 hc
  have hforeign := (List.mem_filter.1 hitem).2
  rw [hcommand] at hforeign
  simpa using hforeign

/-- Adding an element unless its command is there. -/
theorem adds_push {push : List Json → Json → List Json}
    (hpush : ∀ items item, push items item = items ∨ push items item = items ++ [item])
    (hnew : ∀ items item c, command item = some c → isManagedCommand c = true →
      push items item = if c ∈ managedBy command items then items else items ++ [item]) :
    AddsMissing push (fun _ => True) (managedBy command) (managedBy command)
      fun item => managedBy command [item] := by
  have hcases : ∀ items item, (∃ c, command item = some c ∧ isManagedCommand c = true) ∨
      (managedBy command [item] = [] ∧
        managedBy command (push items item) = managedBy command items) := by
    intro items item
    by_cases h : ∀ c, command item = some c → isManagedCommand c = false
    · have hnone := managedBy_of_not h
      refine .inr ⟨hnone, ?_⟩
      rcases hpush items item with hsame | hmore
      · rw [hsame]
      · rw [hmore, managedBy_append, hnone, List.append_nil]
    · push Not at h
      obtain ⟨c, hc, hmanaged⟩ := h
      exact .inl ⟨c, hc, by simpa using hmanaged⟩
  refine ⟨fun _ _ => trivial, fun {items} _ item => ?_, fun {items} _ item d => ?_⟩
  · rcases hcases items item with ⟨c, hc, hmanaged⟩ | ⟨hnone, hsame⟩
    · rw [hnew items item c hc hmanaged, managedBy_of_some hc hmanaged]
      split_ifs with hseen
      · exact ⟨[], by simp, by simpa using hseen, fun _ => List.nodup_nil⟩
      · refine ⟨[c], ?_, by simpa using hseen, fun hd => hd⟩
        rw [managedBy_append, managedBy_of_some hc hmanaged]
    · rw [hnone, hsame]
      exact Grown.refl _ _
  · rcases hcases items item with ⟨c, hc, hmanaged⟩ | ⟨hnone, hsame⟩
    · rw [hnew items item c hc hmanaged, managedBy_of_some hc hmanaged]
      split_ifs with hseen
      · rw [List.mem_singleton]
        exact ⟨.inl, fun h => h.elim id fun hd => hd ▸ hseen⟩
      · rw [managedBy_append, managedBy_of_some hc hmanaged, List.mem_append]
    · rw [hnone, hsame]
      simp

end ManagedBy

theorem adds_pushEntry : AddsMissing pushEntry (fun _ => True) (managedBy entryCommand)
    (managedBy entryCommand) fun entry => managedBy entryCommand [entry] := by
  refine adds_push (fun entries entry => ?_) fun entries entry c hc hmanaged => ?_
  · rw [pushEntry]
    split
    · split
      · exact .inl rfl
      · exact .inr rfl
    · exact .inl rfl
  · have hiff : (entries.any fun e => entryCommand e = some c) = true ↔
        c ∈ managedBy entryCommand entries := by
      rw [mem_managedBy hmanaged]
      simp
    rw [pushEntry, hc]
    simp only [hiff]

theorem adds_pushHook : AddsMissing pushHook (fun _ => True) (managedBy hookCommand)
    (managedBy hookCommand) fun hook => managedBy hookCommand [hook] := by
  refine adds_push (fun hooks hook => ?_) fun hooks hook c hc hmanaged => ?_
  · rw [pushHook]
    split
    · exact .inl rfl
    · exact .inr rfl
  · have hiff : (hooks.any fun h => hookCommand h = some ((hookCommand hook).getD "")) = true ↔
        c ∈ managedBy hookCommand hooks := by
      rw [mem_managedBy hmanaged, hc]
      simp
    rw [pushHook]
    simp only [hiff]

/-! ## Groups -/

/-- The managed commands of the hooks of a group. -/
def groupInstalled (group : Json) : List String :=
  managedBy hookCommand ((group.getArray "hooks").getD [])

/-- Hooks can be put in this group. -/
def takesHooks : Json → Bool
  | .obj fields => (fieldOf "hooks" fields).all fun v => v.asArray.isSome
  | _ => false

variable {group templateGroup : Json} {groups : List Json}

theorem extendGroup_takes (h : takesHooks group = true) (managed : List Json) :
    takesHooks (extendGroup managed group) = true ∧
      ((extendGroup managed group).getArray "hooks").getD [] =
        managed.foldl pushHook ((group.getArray "hooks").getD []) := by
  cases group with
  | obj fields =>
    rw [extendGroup_obj]
    simp only [takesHooks, getArray, Json.get, asObject, Option.bind_some, hooks_extendGroup]
    cases hslot : fieldOf "hooks" fields with
    | none => exact ⟨rfl, rfl⟩
    | some v =>
      cases v with
      | arr hooks => exact ⟨rfl, rfl⟩
      | _ => simp [takesHooks, hslot, asArray] at h
  | _ => cases h

theorem managedBy_managedHooks (group : Json) :
    managedBy hookCommand (managedHooks group) = groupInstalled group :=
  managedBy_filter_managed

theorem grown_extendGroup (h : takesHooks group = true) (templateGroup : Json) :
    Grown (groupInstalled group)
      (groupInstalled (extendGroup (managedHooks templateGroup) group))
      (groupInstalled group) (groupInstalled templateGroup) := by
  have hgrown := (adds_pushHook.foldl.grown trivial (managedHooks templateGroup) :
    Grown (managedBy hookCommand ((group.getArray "hooks").getD [])) _ _ _)
  rw [managedBy_flatMap, managedBy_managedHooks] at hgrown
  rw [groupInstalled, groupInstalled, (extendGroup_takes h _).2]
  exact hgrown

theorem mem_extendGroup (h : takesHooks group = true) (templateGroup : Json) (c : String) :
    c ∈ groupInstalled (extendGroup (managedHooks templateGroup) group) ↔
      c ∈ groupInstalled group ∨ c ∈ groupInstalled templateGroup :=
  (grown_extendGroup h templateGroup).mem (fun _ hc => hc) c

theorem getArray_newGroup (matcher : String) (managed : List Json) :
    (newGroup matcher managed).getArray "hooks" = some managed := by
  rw [newGroup]
  rfl

theorem groupInstalled_newGroup (matcher : String) (templateGroup : Json) :
    groupInstalled (newGroup matcher (managedHooks templateGroup)) =
      groupInstalled templateGroup := by
  rw [groupInstalled, getArray_newGroup, Option.getD_some, managedBy_managedHooks]

theorem takesHooks_newGroup (matcher : String) (managed : List Json) :
    takesHooks (newGroup matcher managed) = true := by
  rw [newGroup]
  rfl

/-- The groups with a matcher. -/
def groupsOf (matcher : String) (groups : List Json) : List Json :=
  groups.filter fun group => matcherOf group = matcher

/-- The group that hooks with a matcher are added to. -/
def firstGroup (matcher : String) (groups : List Json) : Option Json :=
  groups.find? fun group => matcherOf group = matcher

/-- Growing the first group with a matcher grows the groups with it. -/
theorem grown_modifyFirst {matcher : String} {f : Json → Json} {changed : List Json}
    {new : List String} (hfind : firstGroup matcher groups = some group)
    (h : modifyFirst (fun group => matcherOf group = matcher) f groups = some changed)
    (hf : matcherOf (f group) = matcherOf group)
    (hgrown : Grown (groupInstalled group) (groupInstalled (f group)) (groupInstalled group) new) :
    Grown ((groupsOf matcher groups).flatMap groupInstalled)
      ((groupsOf matcher changed).flatMap groupInstalled) (groupInstalled group) new := by
  induction groups generalizing changed with
  | nil => cases h
  | cons g rest ih =>
    rw [modifyFirst] at h
    rw [firstGroup, List.find?_cons] at hfind
    by_cases hg : matcherOf g = matcher
    · rw [if_pos (by simpa using hg)] at h
      cases h
      have hgroup : g = group := by simpa [hg] using hfind
      subst hgroup
      have hbefore : groupsOf matcher (g :: rest) = g :: groupsOf matcher rest := by
        simp [groupsOf, hg]
      have hafter : groupsOf matcher (f g :: rest) = f g :: groupsOf matcher rest := by
        simp [groupsOf, hf, hg]
      rw [hbefore, hafter, List.flatMap_cons, List.flatMap_cons]
      exact hgrown.append_right _
    · rw [if_neg (by simpa using hg)] at h
      obtain ⟨later, hlater, rfl⟩ := Option.map_eq_some_iff.1 h
      have hskip : ∀ gs, groupsOf matcher (g :: gs) = groupsOf matcher gs := by
        intro gs
        simp [groupsOf, hg]
      rw [hskip, hskip]
      exact ih (by simpa [firstGroup, hg] using hfind) hlater

theorem groupsOf_modifyFirst_other {matcher other : String} {f : Json → Json} {changed : List Json}
    (hne : other ≠ matcher) (hf : ∀ group, matcherOf (f group) = matcherOf group)
    (h : modifyFirst (fun group => matcherOf group = other) f groups = some changed) :
    groupsOf matcher changed = groupsOf matcher groups := by
  induction groups generalizing changed with
  | nil => cases h
  | cons g rest ih =>
    rw [modifyFirst] at h
    split_ifs at h with hg
    · cases h
      have hno : matcherOf g ≠ matcher := by
        rw [of_decide_eq_true hg]
        exact hne
      simp [groupsOf, hf, hno]
    · obtain ⟨later, hlater, rfl⟩ := Option.map_eq_some_iff.1 h
      have hrest := ih hlater
      unfold groupsOf at hrest ⊢
      rw [List.filter_cons, List.filter_cons, hrest]

theorem firstGroup_eq (matcher : String) (groups : List Json) :
    firstGroup matcher groups = (groupsOf matcher groups).head? := by
  rw [groupsOf, List.head?_filter, firstGroup]

/-- A template group without managed hooks, or with another matcher. -/
theorem groupsOf_mergeGroup_other {matcher : String}
    (h : managedHooks templateGroup = [] ∨ matcherOf templateGroup ≠ matcher) (groups : List Json) :
    groupsOf matcher (mergeGroup groups templateGroup) = groupsOf matcher groups := by
  rw [mergeGroup_eq]
  split_ifs with hnil
  · rfl
  · have hne := h.resolve_left hnil
    cases hfirst : modifyFirst (fun group => matcherOf group = matcherOf templateGroup)
        (extendGroup (managedHooks templateGroup)) groups with
    | none =>
      have hnew : groupsOf matcher
          [newGroup (matcherOf templateGroup) (managedHooks templateGroup)] = [] := by
        simp [groupsOf, matcherOf_newGroup, hne]
      rw [Option.getD_none, groupsOf, List.filter_append, ← groupsOf, ← groupsOf, hnew,
        List.append_nil]
    | some changed =>
      rw [Option.getD_some]
      exact groupsOf_modifyFirst_other hne (fun group => matcherOf_extendGroup _ group) hfirst

theorem installed_template_other {matcher : String}
    (h : managedHooks templateGroup = [] ∨ matcherOf templateGroup ≠ matcher) :
    (groupsOf matcher [templateGroup]).flatMap groupInstalled = [] := by
  by_cases hm : matcherOf templateGroup = matcher
  · have hnil := h.resolve_right fun hne => hne hm
    have hinstalled := managedBy_managedHooks templateGroup
    rw [hnil, managedBy_nil] at hinstalled
    simp [groupsOf, hm, ← hinstalled]
  · simp [groupsOf, hm]

/-- A template group with managed hooks and this matcher : they go to the first group with the
matcher, or to a new one. -/
theorem mergeGroup_same {matcher : String} (hne : managedHooks templateGroup ≠ [])
    (hm : matcherOf templateGroup = matcher)
    (htakes : (firstGroup matcher groups).all takesHooks = true) :
    Grown ((groupsOf matcher groups).flatMap groupInstalled)
        ((groupsOf matcher (mergeGroup groups templateGroup)).flatMap groupInstalled)
        (((firstGroup matcher groups).map groupInstalled).getD []) (groupInstalled templateGroup) ∧
      ∃ group, firstGroup matcher (mergeGroup groups templateGroup) = some group ∧
        takesHooks group = true ∧ ∀ c, c ∈ groupInstalled group ↔
          c ∈ ((firstGroup matcher groups).map groupInstalled).getD [] ∨
            c ∈ groupInstalled templateGroup := by
  subst hm
  have hfirst := (@find?_mergeGroup groups _ hne (matcherOf templateGroup)).trans
    (if_pos rfl)
  cases hfind : firstGroup (matcherOf templateGroup) groups with
  | none =>
    have hnone : modifyFirst (fun group => matcherOf group = matcherOf templateGroup)
        (extendGroup (managedHooks templateGroup)) groups = none := modifyFirst_eq_none.2 hfind
    have hafter : groupsOf (matcherOf templateGroup) (mergeGroup groups templateGroup) =
        groupsOf (matcherOf templateGroup) groups ++
          [newGroup (matcherOf templateGroup) (managedHooks templateGroup)] := by
      rw [mergeGroup_eq, if_neg hne, hnone, Option.getD_none, groupsOf, List.filter_append]
      simp [groupsOf, matcherOf_newGroup]
    rw [firstGroup] at hfind
    rw [hfind] at hfirst
    refine ⟨?_, _, hfirst, takesHooks_newGroup _ _, fun c => ?_⟩
    · rw [hafter, List.flatMap_append, List.flatMap_singleton, groupInstalled_newGroup]
      exact Grown.append _ _
    · rw [Option.map_none, Option.getD_none, groupInstalled_newGroup]
      simp
  | some group =>
    have htake : takesHooks group = true := by simpa [hfind] using htakes
    have hgrown := grown_extendGroup htake templateGroup
    have hfound := hfind
    rw [firstGroup] at hfound
    rw [hfound] at hfirst
    refine ⟨?_, _, hfirst, (extendGroup_takes htake _).1, mem_extendGroup htake templateGroup⟩
    cases hmod : modifyFirst (fun group => matcherOf group = matcherOf templateGroup)
        (extendGroup (managedHooks templateGroup)) groups with
    | none =>
      rw [modifyFirst_eq_none.1 hmod] at hfound
      cases hfound
    | some changed =>
      rw [mergeGroup_eq, if_neg hne, hmod, Option.getD_some]
      exact grown_modifyFirst hfind hmod (matcherOf_extendGroup _ group) hgrown

/-- Merging template groups, seen from one matcher. -/
theorem adds_mergeGroup (matcher : String) :
    AddsMissing mergeGroup (fun groups => (firstGroup matcher groups).all takesHooks = true)
      (fun groups => (groupsOf matcher groups).flatMap groupInstalled)
      (fun groups => ((firstGroup matcher groups).map groupInstalled).getD [])
      fun templateGroup => (groupsOf matcher [templateGroup]).flatMap groupInstalled := by
  have hcases (groups : List Json) (templateGroup : Json) :
      (groupsOf matcher (mergeGroup groups templateGroup) = groupsOf matcher groups ∧
        firstGroup matcher (mergeGroup groups templateGroup) = firstGroup matcher groups ∧
        (groupsOf matcher [templateGroup]).flatMap groupInstalled = []) ∨
      (managedHooks templateGroup ≠ [] ∧ matcherOf templateGroup = matcher) := by
    by_cases h : managedHooks templateGroup = [] ∨ matcherOf templateGroup ≠ matcher
    · have hsame := groupsOf_mergeGroup_other h groups
      refine .inl ⟨hsame, ?_, installed_template_other h⟩
      rw [firstGroup_eq, hsame, firstGroup_eq]
    · exact .inr (by simpa using h)
  have hof (templateGroup : Json) (hm : matcherOf templateGroup = matcher) :
      (groupsOf matcher [templateGroup]).flatMap groupInstalled = groupInstalled templateGroup := by
    simp [groupsOf, hm]
  refine ⟨fun {groups} htakes templateGroup => ?_, fun {groups} htakes templateGroup => ?_,
    fun {groups} htakes templateGroup c => ?_⟩
  · rcases hcases groups templateGroup with ⟨-, hfirst, -⟩ | ⟨hne, hm⟩
    · rw [hfirst]
      exact htakes
    · obtain ⟨-, group, hfirst, htake, -⟩ := mergeGroup_same hne hm htakes
      rw [hfirst]
      exact htake
  · rcases hcases groups templateGroup with ⟨hgroups, -, hnone⟩ | ⟨hne, hm⟩
    · rw [hgroups, hnone]
      exact Grown.refl _ _
    · rw [hof templateGroup hm]
      exact (mergeGroup_same hne hm htakes).1
  · rcases hcases groups templateGroup with ⟨-, hfirst, hnone⟩ | ⟨hne, hm⟩
    · rw [hfirst, hnone]
      simp
    · obtain ⟨-, group, hfirst, -, hmem⟩ := mergeGroup_same hne hm htakes
      rw [hfirst, hof templateGroup hm]
      exact hmem c

/-! ## Slots -/

/-- The managed commands of the entries of a slot; of groups, those of the groups with a
matcher. -/
def itemsInstalled : ConfigFormat → String → List Json → List String
  | .hooksJson, _, entries => managedBy entryCommand entries
  | .claudeSettings, matcher, groups => (groupsOf matcher groups).flatMap groupInstalled
  | .antigravityNamedHooks, _, entries =>
    entries.flatMap fun entry => managedBy hookCommand (entry :: (entry.getArray "hooks").getD [])

/-- The commands that an install compares with those of the template. -/
def itemsSeen : ConfigFormat → String → List Json → List String
  | .hooksJson, _, entries => managedBy entryCommand entries
  | .claudeSettings, matcher, groups => ((firstGroup matcher groups).map groupInstalled).getD []
  | .antigravityNamedHooks, _, _ => []

/-- The group that an install adds to, if there is one, takes hooks. -/
def itemsTake : ConfigFormat → String → List Json → Bool
  | .claudeSettings, matcher, groups => (firstGroup matcher groups).all takesHooks
  | _, _, _ => true

section Slots

variable {format : ConfigFormat} {matcher event : String}

theorem itemsInstalled_nil (format : ConfigFormat) (matcher : String) :
    itemsInstalled format matcher [] = [] := by
  cases format <;> rfl

theorem itemsInstalled_flatMap (items : List Json) :
    items.flatMap (fun item => itemsInstalled format matcher [item]) =
      itemsInstalled format matcher items := by
  cases format with
  | hooksJson => exact managedBy_flatMap items
  | claudeSettings =>
    simp only [itemsInstalled, groupsOf]
    induction items with
    | nil => rfl
    | cons group rest ih =>
      rw [List.flatMap_cons, ih, ← List.flatMap_append, ← List.filter_append,
        List.singleton_append]
  | antigravityNamedHooks => simp [itemsInstalled]

theorem itemsSeen_subset {items : List Json} :
    ∀ c ∈ itemsSeen format matcher items, c ∈ itemsInstalled format matcher items := by
  intro c hc
  cases format with
  | hooksJson => exact hc
  | claudeSettings =>
    rw [itemsSeen, firstGroup_eq] at hc
    rw [itemsInstalled]
    cases hgroups : groupsOf matcher items with
    | nil =>
      rw [hgroups] at hc
      exact absurd hc List.not_mem_nil
    | cons group rest =>
      rw [hgroups] at hc
      exact List.mem_flatMap.2 ⟨group, List.mem_cons_self, hc⟩
  | antigravityNamedHooks => exact absurd hc List.not_mem_nil

theorem adds_pushItem (hf : format ≠ .antigravityNamedHooks) (matcher : String) :
    AddsMissing (pushItem format) (fun items => itemsTake format matcher items = true)
      (itemsInstalled format matcher) (itemsSeen format matcher)
      fun item => itemsInstalled format matcher [item] := by
  cases format with
  | hooksJson =>
    exact ⟨fun _ _ => rfl, fun _ => adds_pushEntry.grown trivial,
      fun _ => adds_pushEntry.mem_seen trivial⟩
  | claudeSettings => exact adds_mergeGroup matcher
  | antigravityNamedHooks => exact absurd rfl hf

theorem itemsInstalled_slotItems (hf : format ≠ .antigravityNamedHooks) (v : Json) :
    itemsInstalled format matcher (slotItems format v) =
      itemsInstalled format matcher (slotEntries (some v)) := by
  cases format with
  | hooksJson => exact managedBy_filter_managed
  | claudeSettings => rfl
  | antigravityNamedHooks => exact absurd rfl hf

theorem slotItems_untouched {e : String × Json} (h : touches format e = false) :
    slotItems format e.2 = [] := by
  obtain ⟨event, v⟩ := e
  cases format with
  | hooksJson =>
    cases v with
    | arr entries => simpa [slotItems, slotEntries, touches] using h
    | _ => rfl
  | claudeSettings =>
    cases v with
    | arr groups => cases h
    | _ => rfl
  | antigravityNamedHooks => rfl

/-- The entries of a slot after one template event. -/
theorem slotEntries_mergeSlot (hf : format ≠ .antigravityNamedHooks) (hooks : Fields)
    (e : String × Json) :
    slotEntries (fieldOf event (mergeSlot format hooks e)) =
      if e.1 = event then
        (slotItems format e.2).foldl (pushItem format) (slotEntries (fieldOf event hooks))
      else slotEntries (fieldOf event hooks) := by
  rw [mergeSlot_eq format hf]
  by_cases htouch : touches format e = true
  · rw [if_pos htouch, alterSlot, fieldOf_alterField]
    by_cases he : e.1 = event
    · rw [if_pos he.symm, if_pos he, he]
      rfl
    · rw [if_neg (Ne.symm he), if_neg he]
  · rw [if_neg htouch, slotItems_untouched (by simpa using htouch)]
    simp

/-- The entries of a slot after a template is merged. -/
theorem slotEntries_merged (hf : format ≠ .antigravityNamedHooks) {templateHooks : Fields}
    (hd : DistinctFields templateHooks) (hooks : Fields) (event : String) :
    slotEntries (fieldOf event (templateHooks.foldl (mergeSlot format) hooks)) =
      (((fieldOf event templateHooks).map (slotItems format)).getD []).foldl (pushItem format)
        (slotEntries (fieldOf event hooks)) := by
  induction templateHooks generalizing hooks with
  | nil => rfl
  | cons e rest ih =>
    obtain ⟨name, v⟩ := e
    obtain ⟨hnew, hrest⟩ := List.nodup_cons.1 hd
    rw [List.foldl_cons, ih hrest, slotEntries_mergeSlot hf]
    by_cases he : name = event
    · have hnone : fieldOf event rest = none := by
        cases h : fieldOf event rest with
        | none => rfl
        | some w => exact absurd (List.mem_map_of_mem (mem_of_fieldOf h)) (he ▸ hnew)
      simp [fieldOf, he, hnone]
    · simp [fieldOf, he]

end Slots

/-! ## Slots that were cleaned -/

section Cleaned

variable {format : ConfigFormat}

theorem slotEntries_cleaned (slot : Option Json) :
    slotEntries (slot.map (cleanSlot format)) = stays format (slotEntries slot) := by
  cases slot with
  | none => exact (stays_nil format).symm
  | some v =>
    cases hv : v.asArray with
    | none =>
      rw [Option.map_some, asArray_cleanSlot hv]
      have hnone : slotEntries (some v) = [] := by
        cases v with
        | arr items => cases hv
        | _ => rfl
      rw [hnone, stays_nil]
    | some items =>
      cases v with
      | arr entries =>
        rw [Option.map_some, cleanSlot_arr]
        rfl
      | _ => cases hv

theorem mem_stays_groups {group : Json} {groups : List Json}
    (h : group ∈ stays .claudeSettings groups) :
    groupInstalled group = [] ∧ takesHooks group = true := by
  obtain ⟨hmem, hhas⟩ := List.mem_filter.1 h
  obtain ⟨before, -, rfl⟩ := List.mem_map.1 hmem
  refine ⟨?_, ?_⟩
  · rw [groupInstalled, getArray_retainHooks]
    cases before.getArray "hooks" with
    | none => rfl
    | some hooks => exact managedBy_filter_foreign
  · obtain ⟨hooks, hhooks, -⟩ := (Option.any_eq_true _ _).1 hhas
    cases hretained : retainHooks before with
    | obj fields =>
      rw [hretained] at hhooks
      obtain ⟨v, hv, harr⟩ := Option.bind_eq_some_iff.1 hhooks
      have hfield : fieldOf "hooks" fields = some v := hv
      rw [takesHooks, hfield, Option.all_some, harr]
      rfl
    | _ =>
      rw [hretained] at hhooks
      cases hhooks

/-- Nothing managed stays, and what stays takes hooks. -/
theorem itemsInstalled_stays (hf : format ≠ .antigravityNamedHooks) (matcher : String)
    (items : List Json) :
    itemsInstalled format matcher (stays format items) = [] ∧
      itemsTake format matcher (stays format items) = true := by
  cases format with
  | hooksJson => exact ⟨managedBy_filter_foreign, rfl⟩
  | claudeSettings =>
    refine ⟨?_, ?_⟩
    · refine List.flatMap_eq_nil_iff.2 fun group hgroup => ?_
      exact (mem_stays_groups (List.mem_filter.1 hgroup).1).1
    · rw [itemsTake]
      cases h : firstGroup matcher (stays .claudeSettings items) with
      | none => rfl
      | some group => exact (mem_stays_groups (List.mem_of_find?_eq_some h)).2
  | antigravityNamedHooks => exact absurd rfl hf

end Cleaned

/-! ## Documents -/

/-- The managed commands of a place : the slot of an event, the groups of an event with a
matcher, or an event of a named block. -/
def installed (format : ConfigFormat) (doc : Json) (name detail : String) : List String :=
  match format with
  | .antigravityNamedHooks =>
    if detail = "enabled" then []
    else itemsInstalled .antigravityNamedHooks "" (slotEntries (slotOf doc name detail))
  | format => itemsInstalled format detail (slotEntries (slotOf doc "hooks" name))

/-! ## Entries of one hook -/

/-- An entry of at most one hook, with managed commands nowhere else. -/
structure OneHook (fields : Fields) : Prop where
  inHooks : walkFields isManagedCommand fields =
    ((fieldOf "hooks" fields).map collectManagedCommands).getD []
  hooks : ∀ v, fieldOf "hooks" fields = some v → hookCommand (.obj fields) = none ∧
    ∃ hook, v = .arr [hook] ∧ collectManagedCommands hook = managedBy hookCommand [hook]

/-- The command of such an entry is the only managed one. -/
theorem OneHook.collected {fields : Fields} (h : OneHook fields) :
    collectManagedCommands (.obj fields) = managedBy entryCommand [.obj fields] := by
  rw [collectManagedCommands, walkCommands, h.inHooks]
  cases hhooks : fieldOf "hooks" fields with
  | none =>
    have hcommand : entryCommand (.obj fields) = (fieldOf "command" fields).bind asStr := by
      simp [entryCommand, getArray, Json.get, asObject, hhooks, hookCommand, getStr]
    cases hc : (fieldOf "command" fields).bind asStr with
    | none => simp [managedBy, hcommand, hc]
    | some c => cases hm : isManagedCommand c <;> simp [managedBy, hcommand, hc, hm, Option.filter]
  | some v =>
    obtain ⟨hnone, hook, rfl, hhook⟩ := h.hooks v hhooks
    have hcommand : entryCommand (.obj fields) = hookCommand hook := by
      simp [entryCommand, hnone, getArray, Json.get, asObject, hhooks, asArray]
    have hown : (fieldOf "command" fields).bind asStr = none := hnone
    rw [hown, managedBy, List.filterMap_cons, hcommand]
    simpa [collectManagedCommands, walkCommands, walkItems, managedBy, List.filterMap_cons]
      using hhook

/-- Of entries with at most one hook, every managed command is listed. -/
theorem installed_collected {doc : Json} {name detail : String}
    (h : ∀ entry ∈ slotEntries (slotOf doc "hooks" name), ∃ fields, entry = .obj fields ∧
      OneHook fields) :
    installed .hooksJson doc name detail =
      (slotEntries (slotOf doc "hooks" name)).flatMap collectManagedCommands := by
  refine (managedBy_flatMap _).symm.trans (List.flatMap_congr fun entry hentry => ?_)
  obtain ⟨fields, rfl, hone⟩ := h entry hentry
  exact hone.collected.symm

section HooksFormats

variable {format : ConfigFormat} {doc template : Json} {hooks : Fields}

section

variable (hf : format ≠ .antigravityNamedHooks)

include hf

theorem installed_eq (doc : Json) (name detail : String) :
    installed format doc name detail =
      itemsInstalled format detail (slotEntries (slotOf doc "hooks" name)) := by
  cases format with
  | antigravityNamedHooks => exact absurd rfl hf
  | _ => rfl

/-- What a merge adds to a place of a document with a hooks object, or without hooks. -/
theorem grown_merge (ht : template.WellFormed) (hhooks : hooksOf (withHooks doc) = some hooks)
    {name detail : String}
    (htake : itemsTake format detail (slotEntries (slotOf doc "hooks" name)) = true) :
    Grown (installed format doc name detail)
      (installed format (merge format doc template).1 name detail)
      (itemsSeen format detail (slotEntries (slotOf doc "hooks" name)))
      (installed format template name detail) := by
  have hmerged := merge_eq hf doc template
  have hslot : slotOf doc "hooks" name = fieldOf name hooks := by
    rw [← slotOf_withHooks, slotOf_hooks, hhooks, Option.bind_some]
  rw [installed_eq hf, installed_eq hf, installed_eq hf, slotOf_hooks template]
  cases htemplate : hooksOf template with
  | none =>
    rw [htemplate] at hmerged
    dsimp only at hmerged
    have hempty : slotEntries none = [] := rfl
    rw [hmerged, Option.bind_none, hempty, itemsInstalled_nil]
    exact Grown.refl _ _
  | some templateHooks =>
    rw [htemplate, hhooks] at hmerged
    dsimp only at hmerged
    have hafter : slotOf (merge format doc template).1 "hooks" name =
        fieldOf name (templateHooks.foldl (mergeSlot format) hooks) := by
      rw [hmerged, slotOf_hooks, hooksOf_finish, hooksOf_editHooks, hhooks]
      rfl
    have hd := distinct_hooksOf ht htemplate
    rw [hafter, slotEntries_merged hf hd, hslot, Option.bind_some]
    rw [hslot] at htake
    have hgrown := (adds_pushItem hf detail).foldl.grown htake
      (((fieldOf name templateHooks).map (slotItems format)).getD [])
    rw [itemsInstalled_flatMap] at hgrown
    cases hv : fieldOf name templateHooks with
    | none =>
      rw [hv] at hgrown
      have hempty : slotEntries none = [] := rfl
      rw [hempty, itemsInstalled_nil]
      exact Grown.refl _ _
    | some v =>
      rw [hv, Option.map_some, Option.getD_some, itemsInstalled_slotItems hf] at hgrown
      exact hgrown

/-- A repair has exactly the commands of the template. -/
theorem installed_repaired (hw : doc.WellFormed) (ht : template.WellFormed)
    (hhooks : hooksOf (withHooks doc) = some hooks) (name detail : String) :
    Grown [] (installed format (merge format (removeManaged format doc).1 template).1 name detail)
      [] (installed format template name detail) := by
  have hslot : slotEntries (slotOf (removeManaged format doc).1 "hooks" name) =
      stays format (slotEntries (slotOf doc "hooks" name)) := by
    rw [slotOf_removed hf hw, slotEntries_slotKept, slotEntries_cleaned]
  have hwith : hooksOf (withHooks (removeManaged format doc).1) =
      some (cleanHooks format hooks) := by
    rw [removeManaged_eq hf, ← editHooks_withHooks rfl, hooksOf_editHooks, hhooks]
    rfl
  obtain ⟨hnone, htake⟩ :=
    itemsInstalled_stays hf detail (slotEntries (slotOf doc "hooks" name))
  have hseen : itemsSeen format detail (stays format (slotEntries (slotOf doc "hooks" name))) =
      [] := by
    refine List.eq_nil_iff_forall_not_mem.2 fun c hc => ?_
    have hmem := itemsSeen_subset c hc
    rw [hnone] at hmem
    exact List.not_mem_nil hmem
  rw [← hslot] at htake hnone hseen
  have hgrown := grown_merge hf ht hwith htake
  rw [hseen] at hgrown
  rw [installed_eq hf (removeManaged format doc).1, hnone] at hgrown
  exact hgrown

/-- Hooks of another kind are left alone. -/
theorem merge_otherHooks {root : Fields} {v : Json} (hv : fieldOf "hooks" root = some v)
    (hobj : v.asObject = none) (template : Json) :
    (removeManaged format (.obj root)).1 = .obj root ∧
      (merge format (.obj root) template).1 = .obj root := by
  have hnone : hooksOf (.obj root) = none := (congrArg (·.bind asObject) hv).trans hobj
  have hwith : withHooks (.obj root) = .obj root := congrArg Json.obj (ensureField_of_some hv)
  refine ⟨?_, ?_⟩
  · rw [removeManaged_eq hf]
    simp only [editHooks, hnone]
  · rw [merge_eq hf, hwith, hnone]
    cases hooksOf template <;> rfl

end

end HooksFormats

section NamedBlocks

variable {template target : Json} {name detail : String}

/-- The commands of a block that is none of the connector's. -/
theorem installed_foreignBlock
    (h : ∀ block, target.get name = some block → namedBlockHasManagedCommands block = false) :
    installed .antigravityNamedHooks target name detail = [] := by
  rw [installed]
  split_ifs with henabled
  · rfl
  · refine List.flatMap_eq_nil_iff.2 fun entry hentry => ?_
    cases hslot : slotOf target name detail with
    | none =>
      rw [hslot] at hentry
      exact absurd hentry List.not_mem_nil
    | some v =>
      obtain ⟨block, hblock, hv⟩ := Option.bind_eq_some_iff.1 hslot
      cases block with
      | obj fields =>
        cases v with
        | arr entries =>
          rw [hslot] at hentry
          -- a managed command in the entry would make the block a managed one
          by_contra hne
          obtain ⟨c, hc⟩ := List.exists_mem_of_ne_nil _ hne
          have hmanaged : isManagedCommand c = true := (List.mem_filter.1 hc).2
          obtain ⟨item, hitem, hcommand⟩ := (mem_managedBy hmanaged).1 hc
          have hentryManaged : (entryManaged entry ||
              ((entry.getArray "hooks").getD []).any hookManaged) = true := by
            rcases List.mem_cons.1 hitem with rfl | hitem
            · simp [entryManaged, entryCommand, hcommand, hmanaged]
            · rw [Bool.or_eq_true]
              exact .inr (List.any_eq_true.2 ⟨item, hitem, by simp [hookManaged, hcommand,
                hmanaged]⟩)
          have hblockManaged : namedBlockHasManagedCommands (.obj fields) = true := by
            refine List.any_eq_true.2 ⟨(detail, .arr entries), mem_of_fieldOf hv, ?_⟩
            rw [Bool.and_eq_true]
            exact ⟨by simpa using henabled, List.any_eq_true.2 ⟨entry, hentry, hentryManaged⟩⟩
          rw [h _ hblock] at hblockManaged
          cases hblockManaged
        | _ =>
          rw [hslot] at hentry
          exact absurd hentry List.not_mem_nil
      | _ => cases hv

theorem installed_congr (h : template.get name = target.get name) (detail : String) :
    installed .antigravityNamedHooks template name detail =
      installed .antigravityNamedHooks target name detail := by
  simp only [installed, slotOf, h]

/-- A block of the template replaces the block of its name. -/
theorem get_mergedBlock (root : Fields) (ht : template.WellFormed) (name : String) :
    (merge .antigravityNamedHooks (.obj root) template).1.get name =
      if (template.get name).any namedBlockHasManagedCommands = true then template.get name
      else (Json.obj root).get name := by
  cases template with
  | obj blocks =>
    obtain ⟨hin, hout⟩ := fieldOf_mergeBlocks blocks root name
    split_ifs with hmanaged
    · obtain ⟨block, hblock, hb⟩ := (Option.any_eq_true _ _).1 hmanaged
      obtain ⟨block', hmem, -, hafter⟩ := hin ⟨(name, block), mem_of_fieldOf hblock, rfl, hb⟩
      exact hafter.trans (fieldOf_of_mem ht.1 hmem).symm
    · refine hout fun ⟨e, he, hname, hb⟩ => hmanaged ?_
      have hblock : fieldOf name blocks = some e.2 := fieldOf_of_mem ht.1 (hname ▸ he)
      exact (Option.any_eq_true _ _).2 ⟨e.2, hblock, hb⟩
  | _ => rfl

theorem installed_mergedBlock {root : Fields} (ht : template.WellFormed) :
    installed .antigravityNamedHooks (merge .antigravityNamedHooks (.obj root) template).1 name
        detail =
      if (template.get name).any namedBlockHasManagedCommands = true then
        installed .antigravityNamedHooks template name detail
      else installed .antigravityNamedHooks (.obj root) name detail := by
  have hget := get_mergedBlock root ht name
  split_ifs at hget ⊢
  · exact installed_congr hget detail
  · exact installed_congr hget detail

theorem installed_repairedBlock {root : Fields} (hw : (Json.obj root).WellFormed)
    (ht : template.WellFormed) :
    installed .antigravityNamedHooks
        (merge .antigravityNamedHooks (removeManaged .antigravityNamedHooks (.obj root)).1
          template).1 name detail =
      installed .antigravityNamedHooks template name detail := by
  refine (installed_mergedBlock ht).trans ?_
  split_ifs with hmanaged
  · rfl
  · have htemplate : installed .antigravityNamedHooks template name detail = [] := by
      refine installed_foreignBlock fun block hblock => ?_
      rw [hblock, Option.any_some] at hmanaged
      simpa using hmanaged
    rw [htemplate]
    refine installed_foreignBlock fun block hblock => ?_
    have hkept := (get_removeNamed hw name).symm.trans hblock
    simpa using (Option.filter_eq_some_iff.1 hkept).2

end NamedBlocks

/-- What is installed after a repair and after an install. A repair has in every place the
commands of the template, each once if the template has each once. An install of the hooks
formats adds those that it does not find and keeps the others; one of named blocks replaces the
blocks of the template. Hooks that are no object are left alone. -/
theorem installed_exact {format : ConfigFormat} {root : Fields} {template repaired after : Json}
    {listed listed' : List String} (hw : (Json.obj root).WellFormed) (ht : template.WellFormed)
    (hrepair : buildPreview format .repair (.obj root) template = .ok (repaired, listed))
    (hinstall : buildPreview format .install (.obj root) template = .ok (after, listed')) :
    (format ≠ .antigravityNamedHooks → ∀ v, fieldOf "hooks" root = some v → v.asObject = none →
      repaired = .obj root ∧ after = .obj root) ∧
    ((format ≠ .antigravityNamedHooks → ∀ v, fieldOf "hooks" root = some v →
        v.asObject.isSome = true) → ∀ name detail,
      (∀ c, c ∈ installed format repaired name detail ↔
        c ∈ installed format template name detail) ∧
      ((installed format template name detail).Nodup →
        (installed format repaired name detail).Perm (installed format template name detail)) ∧
      (format ≠ .antigravityNamedHooks →
        itemsTake format detail (slotEntries (slotOf (.obj root) "hooks" name)) = true →
        Grown (installed format (.obj root) name detail) (installed format after name detail)
          (itemsSeen format detail (slotEntries (slotOf (.obj root) "hooks" name)))
          (installed format template name detail)) ∧
      (format = .antigravityNamedHooks → installed format after name detail =
        if (template.get name).any namedBlockHasManagedCommands = true then
          installed format template name detail
        else installed format (.obj root) name detail)) := by
  have hrepaired : repaired = (merge format (removeManaged format (.obj root)).1 template).1 := by
    rw [Except.ok.inj hrepair]
  have hafter : after = (merge format (.obj root) template).1 := by
    rw [Except.ok.inj hinstall]
  rw [hrepaired, hafter]
  refine ⟨fun hf v hv hobj => ?_, fun hhooks name detail => ?_⟩
  · obtain ⟨hremoved, hmerged⟩ := merge_otherHooks hf hv hobj template
    rw [hremoved]
    exact ⟨hmerged, hmerged⟩
  · by_cases hf : format = .antigravityNamedHooks
    · subst hf
      rw [installed_repairedBlock hw ht]
      exact ⟨fun c => Iff.rfl, fun _ => List.Perm.refl _, fun hne => absurd rfl hne,
        fun _ => installed_mergedBlock ht⟩
    · have hwith := hooksOf_withHooks (hhooks hf)
      obtain ⟨hmem, hperm⟩ := (installed_repaired hf hw ht hwith name detail).exact
      exact ⟨hmem, hperm, fun _ htake => grown_merge hf ht hwith htake,
        fun hnamed => absurd hnamed hf⟩

/-- A file with the entry of a helper that was elsewhere. -/
def staleTarget : Json :=
  .obj [("hooks", .obj [("PreToolUse", .arr [.obj [("command", .str "old/llm-notch-hook hook")]])])]

/-- Installing next to it leaves both. -/
theorem stale_entry_stays : ∃ after listed,
    buildPreview .hooksJson .install staleTarget sampleTemplate = .ok (after, listed) ∧
      ¬ (installed .hooksJson after "PreToolUse" "").Perm
        (installed .hooksJson sampleTemplate "PreToolUse" "") := by
  refine ⟨(merge .hooksJson staleTarget sampleTemplate).1,
    (merge .hooksJson staleTarget sampleTemplate).2, rfl, ?_⟩
  have hafter : installed .hooksJson (merge .hooksJson staleTarget sampleTemplate).1
      "PreToolUse" "" = ["old/llm-notch-hook hook", "llm-notch-hook hook"] := by
    decide
  have htemplate : installed .hooksJson sampleTemplate "PreToolUse" "" =
      ["llm-notch-hook hook"] := by
    decide
  intro h
  have hlength := h.length_eq
  rw [hafter, htemplate] at hlength
  cases hlength

/-- A repair of the file with the older entry. -/
theorem installed_exact_stale : ∃ repaired listed,
    buildPreview .hooksJson .repair staleTarget sampleTemplate = .ok (repaired, listed) ∧
      ∀ name detail c, c ∈ installed .hooksJson repaired name detail ↔
        c ∈ installed .hooksJson sampleTemplate name detail := by
  have hw : staleTarget.WellFormed := by
    simp [staleTarget, WellFormed, WellFormedFields, WellFormedItems, DistinctFields]
  have ht : sampleTemplate.WellFormed := by
    simp [sampleTemplate, WellFormed, WellFormedFields, WellFormedItems, DistinctFields]
  refine ⟨_, _, rfl, fun name detail => ?_⟩
  have hobject : ∀ v, some (Json.obj [("PreToolUse", .arr [.obj [("command",
      .str "old/llm-notch-hook hook")]])]) = some v → v.asObject.isSome = true := by
    intro v hv
    cases hv
    rfl
  exact ((@installed_exact .hooksJson _ _ _ _ _ _ hw ht rfl rfl).2 (fun _ => hobject) name
    detail).1

end Connector

end LlmNotch
