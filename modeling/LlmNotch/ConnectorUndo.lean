import LlmNotch.ConnectorIdempotence

/-!
# Removing what was merged

A removal looks at a group and at a slot only through what stays of it. Nothing that a merge
adds stays : not the hooks added to a group (`stays_extendGroup`), not the entries added to a
slot (`stays_pushItem`), not a slot that was missing (`cleanHooks_mergeSlot`). So a removal
after a merge is a removal, apart from the hooks object and the version that a merge adds to a
file without them (`remove_after_install`).
-/

namespace LlmNotch

namespace Connector

open Json

/-! ## Elements of a slot -/

/-- What a removal leaves of the elements of a slot. -/
def stays : ConfigFormat → List Json → List Json
  | .hooksJson, entries => entries.filter fun entry => !entryManaged entry
  | .claudeSettings, groups => (groups.map retainHooks).filter hasHooks
  | .antigravityNamedHooks, items => items

theorem cleanSlot_arr (format : ConfigFormat) (items : List Json) :
    cleanSlot format (.arr items) = .arr (stays format items) := by
  cases format <;> rfl

theorem stays_append (format : ConfigFormat) (xs ys : List Json) :
    stays format (xs ++ ys) = stays format xs ++ stays format ys := by
  cases format with
  | hooksJson => exact List.filter_append ..
  | claudeSettings => rw [stays, List.map_append, List.filter_append, stays, stays]
  | antigravityNamedHooks => rfl

theorem stays_cons (format : ConfigFormat) (x : Json) (xs : List Json) :
    stays format (x :: xs) = stays format [x] ++ stays format xs :=
  stays_append format [x] xs

theorem stays_nil (format : ConfigFormat) : stays format [] = [] := by
  cases format <;> rfl

variable {group : Json} {managed : List Json}

theorem stays_group_nil (h : hasHooks (retainHooks group) = false) :
    stays .claudeSettings [group] = [] := by
  simp [stays, h]

/-! ## Hooks of a group -/

theorem retain_pushHook {hook : Json} (hmanaged : hookManaged hook = true) (hooks : List Json) :
    (pushHook hooks hook).filter (fun h => !hookManaged h) =
      hooks.filter fun h => !hookManaged h := by
  rw [pushHook]
  split
  · rfl
  · simp [List.filter_append, hmanaged]

theorem retain_pushHooks (hmanaged : ∀ hook ∈ managed, hookManaged hook = true)
    (hooks : List Json) :
    (managed.foldl pushHook hooks).filter (fun h => !hookManaged h) =
      hooks.filter fun h => !hookManaged h := by
  induction managed generalizing hooks with
  | nil => rfl
  | cons hook managed ih =>
    rw [List.foldl_cons, ih fun h hh => hmanaged h (List.mem_cons_of_mem hook hh)]
    exact retain_pushHook (hmanaged hook List.mem_cons_self) hooks

theorem hookManaged_of_managedHooks : ∀ hook ∈ managedHooks group, hookManaged hook = true :=
  fun _ hhook => (List.mem_filter.1 hhook).2

/-- No group stays if all its hooks are managed. -/
theorem hasHooks_of_managed {hooks : List Json} (h : group.getArray "hooks" = some hooks)
    (hmanaged : hooks.filter (fun h => !hookManaged h) = []) :
    hasHooks (retainHooks group) = false := by
  rw [hasHooks, getArray_retainHooks, h]
  simp [hmanaged]

theorem stays_extendGroup (hmanaged : ∀ hook ∈ managed, hookManaged hook = true) (group : Json) :
    stays .claudeSettings [extendGroup managed group] = stays .claudeSettings [group] := by
  cases group with
  | obj fields =>
    rw [extendGroup_obj]
    cases hslot : fieldOf "hooks" fields with
    | none =>
      -- a group without hooks is dropped with or without the added ones
      have hafter : (obj (alterField "hooks" (growHooks managed) fields)).getArray "hooks" =
          some (managed.foldl pushHook []) := by
        simp only [getArray, Json.get, asObject, Option.bind_some, hooks_extendGroup, hslot]
        rfl
      have hbefore : hasHooks (retainHooks (.obj fields)) = false := by
        rw [hasHooks_retainHooks]
        simp [getArray, Json.get, asObject, hslot]
      rw [stays_group_nil hbefore]
      exact stays_group_nil (hasHooks_of_managed hafter (retain_pushHooks hmanaged []))
    | some v =>
      have hretained : retainHooks (.obj (alterField "hooks" (growHooks managed) fields)) =
          retainHooks (.obj fields) := by
        rw [alterField, hslot]
        dsimp only
        rw [retainHooks_obj, retainHooks_obj, modifyField_modifyField]
        refine congrArg Json.obj (modifyField_congr hslot ?_)
        cases v with
        | arr hooks => exact congrArg Json.arr (retain_pushHooks hmanaged hooks)
        | _ => rfl
      simp only [stays, List.map_cons, List.map_nil, hretained]
  | _ => rfl

theorem stays_newGroup (hmanaged : ∀ hook ∈ managed, hookManaged hook = true) (matcher : String) :
    stays .claudeSettings [newGroup matcher managed] = [] := by
  have hhooks : (newGroup matcher managed).getArray "hooks" = some managed := by
    rw [newGroup]
    rfl
  refine stays_group_nil (hasHooks_of_managed hhooks ?_)
  simpa using hmanaged

theorem stays_modifyFirst {format : ConfigFormat} {p : Json → Bool} {f : Json → Json}
    {xs ys : List Json} (hf : ∀ x, stays format [f x] = stays format [x])
    (h : modifyFirst p f xs = some ys) : stays format ys = stays format xs := by
  induction xs generalizing ys with
  | nil => cases h
  | cons x rest ih =>
    rw [modifyFirst] at h
    split at h
    · cases h
      rw [stays_cons, hf, ← stays_cons]
    · obtain ⟨zs, hzs, rfl⟩ := Option.map_eq_some_iff.1 h
      rw [stays_cons, ih hzs, ← stays_cons]

theorem stays_mergeGroup (groups : List Json) (templateGroup : Json) :
    stays .claudeSettings (mergeGroup groups templateGroup) = stays .claudeSettings groups := by
  have hmanaged := @hookManaged_of_managedHooks templateGroup
  rw [mergeGroup_eq]
  split_ifs
  · rfl
  · cases hfirst : modifyFirst (fun group => matcherOf group = matcherOf templateGroup)
        (extendGroup (managedHooks templateGroup)) groups with
    | none => rw [Option.getD_none, stays_append, stays_newGroup hmanaged, List.append_nil]
    | some changed =>
      rw [Option.getD_some]
      exact stays_modifyFirst (stays_extendGroup hmanaged) hfirst

/-! ## Slots -/

theorem stays_pushEntry {entry : Json} (hmanaged : entryManaged entry = true)
    (entries : List Json) :
    stays .hooksJson (pushEntry entries entry) = stays .hooksJson entries := by
  rw [pushEntry]
  split
  · split
    · rfl
    · rw [stays_append]
      simp [stays, hmanaged]
  · rfl

/-- Nothing that is merged into a slot stays. -/
theorem stays_pushItem {format : ConfigFormat} {v item : Json} (h : item ∈ slotItems format v)
    (entries : List Json) :
    stays format (pushItem format entries item) = stays format entries := by
  cases format with
  | hooksJson => exact stays_pushEntry (List.mem_filter.1 h).2 entries
  | claudeSettings => exact stays_mergeGroup entries item
  | antigravityNamedHooks => rfl

theorem stays_pushItems {format : ConfigFormat} {v : Json} {items : List Json}
    (h : ∀ item ∈ items, item ∈ slotItems format v) (entries : List Json) :
    stays format (items.foldl (pushItem format) entries) = stays format entries := by
  induction items generalizing entries with
  | nil => rfl
  | cons item items ih =>
    rw [List.foldl_cons, ih fun x hx => h x (List.mem_cons_of_mem item hx)]
    exact stays_pushItem (h item List.mem_cons_self) entries

/-! ## The hooks object -/

section Hooks

variable {format : ConfigFormat} {hooks : Fields} {event : String}

theorem cleanHooks_cons (e : String × Json) :
    cleanHooks format (e :: hooks) = cleanHooks format [e] ++ cleanHooks format hooks := by
  rw [cleanHooks, cleanHooks, cleanHooks, retainSlots, retainSlots, retainSlots,
    ← List.filter_append, ← List.map_append, List.singleton_append]

/-- A slot that is cleaned to nothing may be added anywhere. -/
theorem cleanHooks_insertField {v : Json} (h : cleanSlot format v = .arr []) :
    cleanHooks format (insertField event v hooks) = cleanHooks format hooks := by
  have hnew : cleanHooks format [(event, v)] = [] := by
    simp [cleanHooks, retainSlots, h]
  induction hooks with
  | nil => exact hnew
  | cons e rest ih =>
    rw [insertField]
    split_ifs
    · rw [cleanHooks_cons, hnew, List.nil_append]
    · rw [cleanHooks_cons, ih, ← cleanHooks_cons]

theorem cleanHooks_modifyField {f : Json → Json} {v : Json} (hv : fieldOf event hooks = some v)
    (h : cleanSlot format (f v) = cleanSlot format v) :
    cleanHooks format (modifyField event f hooks) = cleanHooks format hooks := by
  induction hooks with
  | nil => rfl
  | cons e rest ih =>
    obtain ⟨k, w⟩ := e
    unfold modifyField
    by_cases hk : k = event
    · have hw : w = v := by simpa [fieldOf, hk] using hv
      have hsame : cleanHooks format [(k, f v)] = cleanHooks format [(k, v)] := by
        simp only [cleanHooks, List.map_cons, List.map_nil, h]
      rw [if_pos hk, cleanHooks_cons, hw, hsame, ← cleanHooks_cons]
    · have hrest : fieldOf event rest = some v := by simpa [fieldOf, hk] using hv
      rw [if_neg hk, cleanHooks_cons, ih hrest, ← cleanHooks_cons]

/-- The slots that a template writes to are absent or arrays. -/
def SlotsArrays (templateHooks hooks : Fields) : Prop :=
  ∀ e ∈ templateHooks, ∀ v, fieldOf e.1 hooks = some v → v.asArray.isSome = true

theorem cleanHooks_mergeSlot (hf : format ≠ .antigravityNamedHooks) {e : String × Json}
    (hslot : ∀ v, fieldOf e.1 hooks = some v → v.asArray.isSome = true) :
    cleanHooks format (mergeSlot format hooks e) = cleanHooks format hooks := by
  have hitems := @stays_pushItems format e.2 _ fun item hitem => hitem
  rw [mergeSlot_eq format hf]
  split_ifs
  · rw [alterSlot, alterField]
    cases hv : fieldOf e.1 hooks with
    | none =>
      refine cleanHooks_insertField ?_
      rw [cleanSlot_arr, hitems]
      exact congrArg Json.arr (stays_nil format)
    | some v =>
      refine cleanHooks_modifyField hv ?_
      cases v with
      | arr entries =>
        rw [cleanSlot_arr, hitems]
        exact (cleanSlot_arr format entries).symm
      | _ => cases hslot _ hv
  · rfl

theorem slotsArrays_mergeSlot (hf : format ≠ .antigravityNamedHooks) {templateHooks : Fields}
    (h : SlotsArrays templateHooks hooks) (e : String × Json) :
    SlotsArrays templateHooks (mergeSlot format hooks e) := by
  intro other hother v hv
  rw [mergeSlot_eq format hf] at hv
  split_ifs at hv
  · rw [alterSlot, fieldOf_alterField] at hv
    split_ifs at hv
    · rw [← Option.some.inj hv]
      rfl
    · exact h other hother v hv
  · exact h other hother v hv

/-- Cleaning the slots after a template was merged into them. -/
theorem cleanHooks_merged (hf : format ≠ .antigravityNamedHooks) {templateHooks : Fields}
    (h : SlotsArrays templateHooks hooks) :
    cleanHooks format (templateHooks.foldl (mergeSlot format) hooks) =
      cleanHooks format hooks := by
  induction templateHooks generalizing hooks with
  | nil => rfl
  | cons e rest ih =>
    have hrest : SlotsArrays rest hooks := fun x hx => h x (List.mem_cons_of_mem e hx)
    rw [List.foldl_cons, ih (slotsArrays_mergeSlot hf hrest e)]
    exact cleanHooks_mergeSlot hf (h e List.mem_cons_self)

end Hooks

/-! ## Documents -/

section Documents

variable {format : ConfigFormat} {target template : Json}

theorem editHooks_editHooks (f g : Fields → Fields) :
    editHooks g (editHooks f target) = editHooks (fun hooks => g (f hooks)) target := by
  cases target with
  | obj root =>
    have hafter := @hooksOf_editHooks (.obj root) f
    cases h : hooksOf (.obj root) with
    | none => simp only [editHooks, h]
    | some hooks =>
      rw [h, Option.map_some] at hafter
      simp only [editHooks, h] at hafter ⊢
      rw [hafter]
      exact congrArg Json.obj (modifyField_modifyField _ _)
  | _ => rfl

theorem editHooks_congr {f g : Fields → Fields} {hooks : Fields} (h : hooksOf target = some hooks)
    (hfg : f hooks = g hooks) : editHooks f target = editHooks g target := by
  cases target with
  | obj root => simp only [editHooks, h, hfg]
  | _ => rfl

/-- A change of the hooks and a version commute. -/
theorem editHooks_addVersion (f : Fields → Fields) :
    editHooks f (addVersion template target) = addVersion template (editHooks f target) := by
  cases hversion : template.get "version" with
  | none => simp only [addVersion, hversion]
  | some version =>
    cases target with
    | obj root =>
      have hsame : hooksOf (.obj (ensureField "version" version root)) = hooksOf (.obj root) := by
        have h := @hooksOf_addVersion (.obj root) template
        simpa only [addVersion, hversion] using h
      cases h : hooksOf (.obj root) with
      | none => simp only [addVersion, hversion, editHooks, hsame, h]
      | some hooks =>
        simp only [addVersion, hversion, editHooks, hsame, h]
        exact congrArg Json.obj (modifyField_ensureField_ne (by decide) _ _)
    | _ => simp only [addVersion, hversion, editHooks]

theorem editHooks_finish (format : ConfigFormat) (f : Fields → Fields) :
    editHooks f (finish format template target) = finish format template (editHooks f target) := by
  cases format with
  | hooksJson => exact editHooks_addVersion f
  | _ => rfl

/-- A change that keeps an empty hooks object commutes with adding one. -/
theorem editHooks_withHooks {f : Fields → Fields} (hf : f [] = []) :
    editHooks f (withHooks target) = withHooks (editHooks f target) := by
  cases target with
  | obj root =>
    cases hv : fieldOf "hooks" root with
    | none =>
      have hbefore : hooksOf (.obj root) = none := by
        simp [hooksOf, Json.get, asObject, hv]
      have hafter : hooksOf (.obj (insertField "hooks" (.obj []) root)) = some [] := by
        simp [hooksOf, Json.get, asObject, fieldOf_insertField _ hv]
      simp only [withHooks, editHooks, ensureField, hv, hbefore, Option.isSome_none,
        Bool.false_eq_true, if_false, hafter, hf]
      exact congrArg Json.obj (modifyField_insertField _ hv)
    | some v =>
      have hwith : withHooks (.obj root) = .obj root := congrArg Json.obj (ensureField_of_some hv)
      have hedited : ∃ w, (editHooks f (.obj root)).get "hooks" = some w := by
        rw [get_hooks_editHooks]
        cases hooksOf (.obj root) with
        | none => exact ⟨v, hv⟩
        | some hooks => exact ⟨_, rfl⟩
      obtain ⟨w, hw⟩ := hedited
      rw [hwith]
      cases hdoc : editHooks f (.obj root) with
      | obj fields =>
        rw [hdoc] at hw
        exact (congrArg Json.obj (ensureField_of_some hw)).symm
      | _ => rfl
  | _ => rfl

theorem hooksOf_withHooks {root : Fields}
    (h : ∀ v, fieldOf "hooks" root = some v → v.asObject.isSome = true) :
    hooksOf (withHooks (.obj root)) = some ((hooksOf (.obj root)).getD []) := by
  cases hv : fieldOf "hooks" root with
  | none =>
    simp [withHooks, hooksOf, Json.get, asObject, fieldOf_ensureField, hv]
  | some v =>
    cases v with
    | obj fields => simp [withHooks, hooksOf, Json.get, asObject, fieldOf_ensureField, hv]
    | _ => cases h _ hv

end Documents

/-- A removal after an install is a removal, but for an empty hooks object and a version where
the document has none. -/
theorem remove_after_install (format : ConfigFormat) (hf : format ≠ .antigravityNamedHooks)
    (root : Fields) (template : Json)
    (hhooks : ∀ v, fieldOf "hooks" root = some v → v.asObject.isSome = true)
    (hslots : SlotsArrays ((hooksOf template).getD []) ((hooksOf (.obj root)).getD [])) :
    (removeManaged format (merge format (.obj root) template).1).1 =
      if (hooksOf template).isSome = true then
        finish format template (withHooks (removeManaged format (.obj root)).1)
      else (removeManaged format (.obj root)).1 := by
  rw [merge_eq hf]
  cases htemplate : hooksOf template with
  | none => rfl
  | some templateHooks =>
    rw [htemplate, Option.getD_some] at hslots
    have hwith := hooksOf_withHooks hhooks
    rw [hwith, Option.isSome_some, if_pos rfl, removeManaged_eq hf, removeManaged_eq hf]
    dsimp only
    rw [editHooks_finish, editHooks_editHooks]
    refine congrArg (finish format template) ?_
    have hsame : editHooks (fun hooks =>
          cleanHooks format (templateHooks.foldl (mergeSlot format) hooks)) (withHooks (.obj root)) =
        editHooks (cleanHooks format) (withHooks (.obj root)) :=
      editHooks_congr hwith (cleanHooks_merged hf hslots)
    rw [hsame]
    exact editHooks_withHooks rfl

/-- A file with groups of two matchers, one without hooks. -/
def groupedRoot : Fields :=
  [("hooks", .obj [("PreToolUse", .arr [
    .obj [("hooks", .arr [.obj [("command", .str "audit.sh")]]), ("matcher", .str "Bash")],
    .obj [("matcher", .str "Edit")]])])]

/-- A template with a group for each of these matchers, and one for another event. -/
def groupedTemplate : Json :=
  .obj [("hooks", .obj [
    ("PreToolUse", .arr [
      .obj [("hooks", .arr [.obj [("command", .str "llm-notch-hook a")]]),
        ("matcher", .str "Bash")],
      .obj [("hooks", .arr [.obj [("command", .str "llm-notch-hook b")]]),
        ("matcher", .str "Edit")]]),
    ("Stop", .arr [.obj [("hooks", .arr [.obj [("command", .str "llm-notch-hook c")]])]])])]

/-- Installing into and removing from the file with groups. -/
theorem remove_after_install_groups :
    (removeManaged .claudeSettings (merge .claudeSettings (.obj groupedRoot) groupedTemplate).1).1 =
      (removeManaged .claudeSettings (.obj groupedRoot)).1 := by
  have hhooks : ∀ v, fieldOf "hooks" groupedRoot = some v → v.asObject.isSome = true := by
    simp [groupedRoot, fieldOf, asObject]
  have hslots : SlotsArrays ((hooksOf groupedTemplate).getD [])
      ((hooksOf (.obj groupedRoot)).getD []) := by
    simp [SlotsArrays, groupedTemplate, groupedRoot, hooksOf, Json.get, asObject, fieldOf, asArray]
  have h := remove_after_install .claudeSettings (by decide) groupedRoot groupedTemplate hhooks
    hslots
  rw [h]
  rfl

end Connector

end LlmNotch
