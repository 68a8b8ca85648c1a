import LlmNotch.ConnectorCommands

/-!
# Edits of the hooks object

The two formats with a `hooks` object. A merge appends to the slots it writes to, and keeps
their entries (`foreign_merge`). A removal cleans every slot and drops the empty ones
(`slotOf_removed`). Each slot then decides for itself what is lost.
-/

namespace LlmNotch

namespace Connector

open Json

/-! ## Editing the hooks object -/

section Hooks

variable {target : Json} {key event : String}

theorem slotOf_hooks (doc : Json) (event : String) :
    slotOf doc "hooks" event = (hooksOf doc).bind (fieldOf event) := by
  unfold slotOf hooksOf
  cases doc.get "hooks" with
  | none => rfl
  | some v => rfl

theorem get_editHooks (f : Fields → Fields) (hkey : key ≠ "hooks") :
    (editHooks f target).get key = target.get key := by
  unfold editHooks
  split
  · split
    · simp [Json.get, asObject, fieldOf_modifyField, hkey]
    · rfl
  · rfl

theorem get_hooks_editHooks (f : Fields → Fields) :
    (editHooks f target).get "hooks" =
      match hooksOf target with
      | some hooks => some (.obj (f hooks))
      | none => target.get "hooks" := by
  unfold editHooks
  split
  · rename_i root
    cases h : hooksOf (.obj root) with
    | none => rfl
    | some hooks =>
      obtain ⟨v, hv, -⟩ := Option.bind_eq_some_iff.1 h
      have hfield : fieldOf "hooks" root = some v := hv
      simp [Json.get, asObject, fieldOf_modifyField, hfield]
  · rename_i hno
    cases target with
    | obj root => exact absurd rfl (hno root)
    | _ => rfl

theorem hooksOf_editHooks (f : Fields → Fields) :
    hooksOf (editHooks f target) = (hooksOf target).map f := by
  rw [hooksOf, get_hooks_editHooks]
  cases h : hooksOf target with
  | none => exact h
  | some hooks => rfl

theorem slotOf_editHooks (f : Fields → Fields) :
    slotOf (editHooks f target) "hooks" event =
      (hooksOf target).bind fun hooks => fieldOf event (f hooks) := by
  rw [slotOf_hooks, hooksOf_editHooks]
  cases hooksOf target <;> rfl

theorem get_withHooks (hkey : key ≠ "hooks") : (withHooks target).get key = target.get key := by
  unfold withHooks
  split
  · simp [Json.get, asObject, fieldOf_ensureField, hkey]
  · rfl

theorem slotOf_withHooks :
    slotOf (withHooks target) "hooks" event = slotOf target "hooks" event := by
  unfold withHooks
  split
  · rename_i root
    simp only [slotOf, Json.get, asObject, Option.bind_some, fieldOf_ensureField, if_true]
    cases fieldOf "hooks" root with
    | none => rfl
    | some v => rfl
  · rfl

end Hooks

/-! ## Merging into the hooks object -/

section Merge

variable {format : ConfigFormat} {step : Fields → String × Json → Fields}
  {grow : Json → List Json → List Json}

theorem commandsIn_arr (keep : String → Bool) (items : List Json) :
    commandsIn keep (some (.arr items)) = walkItems keep items := by
  simp [commandsIn, walkCommands]

/-- Merging a template without foreign commands into the slots : a slot the template writes to
keeps the commands of its entries, every other slot stays. -/
theorem foldl_slots
    (hstep : ∀ hooks e, step hooks e =
      if touches format e = true then alterSlot e.1 (grow e.2) hooks else hooks)
    (hgrow : ∀ v entries, walkCommands foreign v = [] →
      walkItems foreign (grow v entries) = walkItems foreign entries)
    {ts : Fields} (hts : ∀ e ∈ ts, walkCommands foreign e.2 = []) (hooks : Fields)
    (event : String) :
    ((∃ e ∈ ts, e.1 = event ∧ touches format e = true) →
      commandsIn foreign (fieldOf event (ts.foldl step hooks)) =
        walkItems foreign (slotEntries (fieldOf event hooks))) ∧
    ((¬ ∃ e ∈ ts, e.1 = event ∧ touches format e = true) →
      fieldOf event (ts.foldl step hooks) = fieldOf event hooks) := by
  induction ts generalizing hooks with
  | nil => exact ⟨fun ⟨e, he, _⟩ => (by cases he), fun _ => rfl⟩
  | cons e ts ih =>
    obtain ⟨hin, hout⟩ := ih (fun x hx => hts x (List.mem_cons_of_mem e hx)) (step hooks e)
    rw [List.foldl_cons]
    by_cases hhead : e.1 = event ∧ touches format e = true
    · obtain ⟨rfl, htouch⟩ := hhead
      have hslot : fieldOf e.1 (step hooks e) =
          some (.arr (grow e.2 (slotEntries (fieldOf e.1 hooks)))) := by
        rw [hstep, if_pos htouch, alterSlot, fieldOf_alterField, if_pos rfl]
      have hsame := hgrow e.2 (slotEntries (fieldOf e.1 hooks)) (hts e (by simp))
      refine ⟨fun _ => ?_, fun hno => absurd ⟨e, by simp, rfl, htouch⟩ hno⟩
      by_cases hrest : ∃ x ∈ ts, x.1 = e.1 ∧ touches format x = true
      · rw [hin hrest, hslot]
        exact hsame
      · rw [hout hrest, hslot, commandsIn_arr, hsame]
    · have hslot : fieldOf event (step hooks e) = fieldOf event hooks := by
        rw [hstep]
        split
        · rename_i htouch
          have hne : event ≠ e.1 := fun h => hhead ⟨h.symm, htouch⟩
          rw [alterSlot, fieldOf_alterField, if_neg hne]
        · rfl
      have hiff : (∃ x ∈ e :: ts, x.1 = event ∧ touches format x = true) ↔
          ∃ x ∈ ts, x.1 = event ∧ touches format x = true := by
        simp only [List.mem_cons, exists_eq_or_imp, or_iff_right hhead]
      rw [hiff]
      exact ⟨fun h => by rw [hin h, hslot], fun h => by rw [hout h, hslot]⟩

variable {template : Json} {key : String}

/-- The slots after a merge of either hooks format. -/
theorem slotOf_merged {target : Json} (hstep : ∀ hooks e, step hooks e =
      if touches format e = true then alterSlot e.1 (grow e.2) hooks else hooks)
    (hgrow : ∀ v entries, walkCommands foreign v = [] →
      walkItems foreign (grow v entries) = walkItems foreign entries)
    (hfields : templateFields format template = (hooksOf template).getD [])
    (ht : walkCommands foreign template = []) {templateHooks hooks : Fields}
    (htemplate : hooksOf template = some templateHooks)
    (hhooks : hooksOf (withHooks target) = some hooks) (event : String) :
    (Touched format template event →
      commandsIn foreign (slotOf (editHooks (templateHooks.foldl step) (withHooks target))
        "hooks" event) = walkItems foreign (slotEntries (slotOf target "hooks" event))) ∧
    (¬ Touched format template event →
      slotOf (editHooks (templateHooks.foldl step) (withHooks target)) "hooks" event =
        slotOf target "hooks" event) := by
  have hts : ∀ e ∈ templateHooks, walkCommands foreign e.2 = [] := by
    intro e he
    obtain ⟨v, hv, hobj⟩ := Option.bind_eq_some_iff.1 htemplate
    cases v with
    | obj fields =>
      cases hobj
      exact walk_field_eq_nil (walk_get_eq_nil ht hv) he
    | _ => cases hobj
  have hbefore : slotOf target "hooks" event = fieldOf event hooks := by
    rw [← slotOf_withHooks, slotOf_hooks, hhooks, Option.bind_some]
  have hfold := foldl_slots hstep hgrow hts hooks event
  rw [slotOf_editHooks, hhooks, Option.bind_some, hbefore]
  unfold Touched
  rw [hfields, htemplate, Option.getD_some]
  exact hfold

/-! The two formats. -/

def growEntries : Json → List Json → List Json
  | .arr entries, slot => (entries.filter entryManaged).foldl pushEntry slot
  | _, slot => slot

theorem mergeEvent_eq (hooks : Fields) (e : String × Json) :
    mergeEvent hooks e = if touches .hooksJson e = true then alterSlot e.1 (growEntries e.2) hooks
      else hooks := by
  obtain ⟨event, v⟩ := e
  cases v with
  | arr entries =>
    have hany : entries.any entryManaged = !(entries.filter entryManaged).isEmpty := by
      rw [Bool.eq_iff_iff]
      simp
    simp only [mergeEvent, touches, hany]
    cases (entries.filter entryManaged).isEmpty <;> rfl
  | _ => rfl

/-- Adding elements without foreign commands one by one. -/
theorem walkItems_foldl {push : List Json → Json → List Json}
    (hpush : ∀ xs x, walkCommands foreign x = [] → walkItems foreign (push xs x) =
      walkItems foreign xs)
    {added : List Json} (h : ∀ x ∈ added, walkCommands foreign x = []) (items : List Json) :
    walkItems foreign (added.foldl push items) = walkItems foreign items := by
  induction added generalizing items with
  | nil => rfl
  | cons x rest ih =>
    rw [List.foldl_cons, ih fun y hy => h y (List.mem_cons_of_mem x hy)]
    exact hpush items x (h x (by simp))

theorem walkItems_concat {x : Json} (h : walkCommands foreign x = []) (items : List Json) :
    walkItems foreign (items ++ [x]) = walkItems foreign items := by
  simp [walkItems_append, walkItems, h]

theorem walkItems_pushEntry (entries : List Json) (e : Json) (h : walkCommands foreign e = []) :
    walkItems foreign (pushEntry entries e) = walkItems foreign entries := by
  unfold pushEntry
  split
  · split
    · rfl
    · exact walkItems_concat h entries
  · rfl

theorem walkItems_growEntries (v : Json) (slot : List Json) (h : walkCommands foreign v = []) :
    walkItems foreign (growEntries v slot) = walkItems foreign slot := by
  cases v with
  | arr entries =>
    have hall : ∀ e ∈ entries.filter entryManaged, walkCommands foreign e = [] :=
      fun e he => walk_item_eq_nil h (List.mem_filter.1 he).1
    exact walkItems_foldl walkItems_pushEntry hall slot
  | _ => rfl

def growGroups : Json → List Json → List Json
  | .arr groups, slot => groups.foldl mergeGroup slot
  | _, slot => slot

theorem mergeGroups_eq (hooks : Fields) (e : String × Json) :
    mergeGroups hooks e = if touches .claudeSettings e = true then
      alterSlot e.1 (growGroups e.2) hooks else hooks := by
  obtain ⟨event, v⟩ := e
  cases v <;> rfl

theorem walkItems_pushHook (hooks : List Json) (x : Json) (h : walkCommands foreign x = []) :
    walkItems foreign (pushHook hooks x) = walkItems foreign hooks := by
  unfold pushHook
  split
  · rfl
  · exact walkItems_concat h hooks

/-- Hooks that are put in an object and then changed, if the change keeps their commands. -/
theorem walk_modifyHooks {f : Json → Json}
    (hf : ∀ v, walkCommands foreign (f v) = walkCommands foreign v) (fields : Fields) :
    walkCommands foreign (.obj (modifyField "hooks" f (ensureField "hooks" (.arr []) fields))) =
      walkCommands foreign (.obj fields) := by
  have hensured : walkFields foreign (ensureField "hooks" (.arr []) fields) =
      walkFields foreign fields := by
    unfold ensureField
    split
    · rfl
    · exact walkFields_insertField rfl fields
  have hmodified : walkFields foreign (modifyField "hooks" f
      (ensureField "hooks" (.arr []) fields)) = walkFields foreign fields := by
    have hfield : fieldOf "hooks" (ensureField "hooks" (.arr []) fields) =
        some ((fieldOf "hooks" fields).getD (.arr [])) := by
      rw [fieldOf_ensureField, if_pos rfl]
    rw [(walkFields_modifyField_eq hfield).2 (hf _), hensured]
  have hcommand : fieldOf "command" (modifyField "hooks" f
      (ensureField "hooks" (.arr []) fields)) = fieldOf "command" fields := by
    rw [fieldOf_modifyField, if_neg (by decide), fieldOf_ensureField, if_neg (by decide)]
  rw [walkCommands, walkCommands, hcommand, hmodified]

theorem walk_extendGroup {managed : List Json} (h : ∀ x ∈ managed, walkCommands foreign x = [])
    (group : Json) :
    walkCommands foreign (extendGroup managed group) = walkCommands foreign group := by
  cases group with
  | obj fields =>
    refine walk_modifyHooks (fun v => ?_) fields
    cases v with
    | arr hooks => simp only [walkCommands, walkItems_foldl walkItems_pushHook h]
    | _ => rfl
  | _ => rfl

theorem walkItems_modifyFirst {p : Json → Bool} {f : Json → Json} {xs ys : List Json}
    (hf : ∀ x, walkCommands foreign (f x) = walkCommands foreign x)
    (h : modifyFirst p f xs = some ys) : walkItems foreign ys = walkItems foreign xs := by
  induction xs generalizing ys with
  | nil => cases h
  | cons x rest ih =>
    unfold modifyFirst at h
    split at h
    · cases h
      rw [walkItems, walkItems, hf]
    · obtain ⟨zs, hzs, rfl⟩ := Option.map_eq_some_iff.1 h
      rw [walkItems, walkItems, ih hzs]

theorem walkItems_mergeGroup (groups : List Json) (templateGroup : Json)
    (h : walkCommands foreign templateGroup = []) :
    walkItems foreign (mergeGroup groups templateGroup) = walkItems foreign groups := by
  set managed := ((templateGroup.getArray "hooks").getD []).filter hookManaged with hmanaged
  have hall : ∀ x ∈ managed, walkCommands foreign x = [] := by
    intro x hx
    have hmem := (List.mem_filter.1 hx).1
    cases hhooks : templateGroup.getArray "hooks" with
    | none => simp [hhooks] at hmem
    | some hooks =>
      rw [hhooks, Option.getD_some] at hmem
      exact walk_getArray_eq_nil h hhooks hmem
  have hnew : walkCommands foreign (newGroup (matcherOf templateGroup) managed) = [] := by
    have hitems := walkItems_eq_nil.2 hall
    rw [newGroup, walkCommands]
    split
    · simp [fieldOf, walkFields, walkCommands, hitems]
    · simp [fieldOf, walkFields, walkCommands, hitems]
  simp only [mergeGroup, ← hmanaged]
  split
  · rfl
  · split
    · rename_i groups' hgroups
      exact walkItems_modifyFirst (walk_extendGroup hall) hgroups
    · exact walkItems_concat hnew groups

theorem walkItems_growGroups (v : Json) (slot : List Json) (h : walkCommands foreign v = []) :
    walkItems foreign (growGroups v slot) = walkItems foreign slot := by
  cases v with
  | arr groups =>
    have hall : ∀ g ∈ groups, walkCommands foreign g = [] := fun g hg => walk_item_eq_nil h hg
    exact walkItems_foldl walkItems_mergeGroup hall slot
  | _ => rfl

theorem get_addVersion {merged : Json} (hkey : key ≠ "version") :
    (addVersion template merged).get key = merged.get key := by
  unfold addVersion
  split
  · simp [Json.get, asObject, fieldOf_ensureField, hkey]
  · rfl

theorem get_addVersion_of_some {merged v : Json} (h : merged.get key = some v) :
    (addVersion template merged).get key = some v := by
  unfold addVersion
  split
  · rename_i version root _
    have hfield : fieldOf key root = some v := h
    by_cases hkey : key = "version"
    · subst hkey
      simp [Json.get, asObject, fieldOf_ensureField, hfield]
    · simp [Json.get, asObject, fieldOf_ensureField, hkey, hfield]
  · exact h

/-- The foreign commands of the slots after a merge. -/
theorem foreign_merge (target : Json) (hf : format ≠ .antigravityNamedHooks)
    (ht : walkCommands foreign template = []) (event : String) :
    (Touched format template event →
      commandsIn foreign (slotOf (merge format target template).1 "hooks" event) =
        walkItems foreign (slotEntries (slotOf target "hooks" event))) ∧
    (¬ Touched format template event →
      commandsIn foreign (slotOf (merge format target template).1 "hooks" event) =
        commandsIn foreign (slotOf target "hooks" event)) := by
  -- without a hooks object on both sides nothing changes
  have hsame : hooksOf template = none ∨ hooksOf (withHooks target) = none →
      (Touched format template event → commandsIn foreign (slotOf target "hooks" event) =
        walkItems foreign (slotEntries (slotOf target "hooks" event))) := by
    rintro (h | h) htouched
    · obtain ⟨e, he, -⟩ := htouched
      cases format with
      | antigravityNamedHooks => exact absurd rfl hf
      | hooksJson => simp [templateFields, h] at he
      | claudeSettings => simp [templateFields, h] at he
    · rw [← slotOf_withHooks, slotOf_hooks, h]
      rfl
  cases htemplate : hooksOf template with
  | none =>
    have hmerge : (merge format target template).1 = target := by
      cases format with
      | antigravityNamedHooks => exact absurd rfl hf
      | hooksJson => simp only [merge, mergeHooksJson, htemplate]
      | claudeSettings => simp only [merge, mergeClaudeSettings, htemplate]
    rw [hmerge]
    exact ⟨hsame (.inl htemplate), fun _ => rfl⟩
  | some templateHooks =>
    cases hhooks : hooksOf (withHooks target) with
    | none =>
      have hmerge : (merge format target template).1 = target := by
        cases format with
        | antigravityNamedHooks => exact absurd rfl hf
        | hooksJson => simp only [merge, mergeHooksJson, htemplate, hhooks]
        | claudeSettings => simp only [merge, mergeClaudeSettings, htemplate, hhooks]
      rw [hmerge]
      exact ⟨hsame (.inr hhooks), fun _ => rfl⟩
    | some hooks =>
      cases format with
      | antigravityNamedHooks => exact absurd rfl hf
      | hooksJson =>
        have hmerged := slotOf_merged mergeEvent_eq walkItems_growEntries rfl ht htemplate hhooks
          event
        have hslot : slotOf (merge .hooksJson target template).1 "hooks" event =
            slotOf (editHooks (templateHooks.foldl mergeEvent) (withHooks target)) "hooks"
              event := by
          simp only [merge, mergeHooksJson, htemplate, hhooks]
          rw [slotOf, get_addVersion (by decide), slotOf]
        rw [hslot]
        exact ⟨hmerged.1, fun h => by rw [hmerged.2 h]⟩
      | claudeSettings =>
        have hmerged := slotOf_merged mergeGroups_eq walkItems_growGroups rfl ht htemplate hhooks
          event
        have hslot : slotOf (merge .claudeSettings target template).1 "hooks" event =
            slotOf (editHooks (templateHooks.foldl mergeGroups) (withHooks target)) "hooks"
              event := by
          simp only [merge, mergeClaudeSettings, htemplate, hhooks]
        rw [hslot]
        exact ⟨hmerged.1, fun h => by rw [hmerged.2 h]⟩

/-- A merge adds keys and keeps the others. -/
theorem get_merge {target : Json} (hf : format ≠ .antigravityNamedHooks) (hkey : key ≠ "hooks")
    {v : Json} (h : target.get key = some v) :
    (merge format target template).1.get key = some v := by
  have hedit : ∀ f, (editHooks f (withHooks target)).get key = some v := fun f => by
    rw [get_editHooks f hkey, get_withHooks hkey, h]
  cases format with
  | antigravityNamedHooks => exact absurd rfl hf
  | hooksJson =>
    simp only [merge, mergeHooksJson]
    split
    · exact get_addVersion_of_some (hedit _)
    · exact h
  | claudeSettings =>
    simp only [merge, mergeClaudeSettings]
    split
    · exact hedit _
    · exact h

end Merge

/-! ## Taking entries out of the hooks object -/

section Remove

variable {format : ConfigFormat} {target : Json} {event : String} {keep : String → Bool}

/-- What a removal does to a slot. -/
def cleanSlot : ConfigFormat → Json → Json
  | .hooksJson => removeEntries
  | .claudeSettings => removeGroups
  | .antigravityNamedHooks => id

def slotKept : Json → Bool
  | .arr items => !items.isEmpty
  | _ => true

theorem distinct_hooksOf (hw : target.WellFormed) {hooks : Fields}
    (h : hooksOf target = some hooks) : DistinctFields hooks := by
  obtain ⟨v, hv, hobj⟩ := Option.bind_eq_some_iff.1 h
  cases v with
  | obj fields =>
    cases hobj
    exact (hw.get hv).1
  | _ => cases hobj

theorem distinct_cleaned {hooks : Fields} (hd : DistinctFields hooks) :
    DistinctFields (hooks.map fun e => (e.1, cleanSlot format e.2)) := by
  have hnames : (hooks.map fun e => (e.1, cleanSlot format e.2)).map Prod.fst =
      hooks.map Prod.fst := by
    simp
  unfold DistinctFields
  rw [hnames]
  exact hd

/-- The fields of a hooks object after a removal. -/
def cleanHooks (format : ConfigFormat) (hooks : Fields) : Fields :=
  retainSlots (hooks.map fun e => (e.1, cleanSlot format e.2))

theorem removeManaged_eq (hf : format ≠ .antigravityNamedHooks) :
    (removeManaged format target).1 = editHooks (cleanHooks format) target := by
  cases format with
  | antigravityNamedHooks => exact absurd rfl hf
  | _ => rfl

theorem fieldOf_cleanHooks {hooks : Fields} (hd : DistinctFields hooks) :
    fieldOf event (cleanHooks format hooks) =
      ((fieldOf event hooks).map (cleanSlot format)).filter slotKept := by
  rw [cleanHooks, retainSlots, fieldOf_filter (distinct_cleaned hd),
    fieldOf_map fun _ => cleanSlot format]
  rfl

theorem distinct_cleanHooks {hooks : Fields} (hd : DistinctFields hooks) :
    DistinctFields (cleanHooks format hooks) :=
  (List.filter_sublist.map Prod.fst).nodup (distinct_cleaned hd)

theorem slotOf_removed (hf : format ≠ .antigravityNamedHooks) (hw : target.WellFormed) :
    slotOf (removeManaged format target).1 "hooks" event =
      ((slotOf target "hooks" event).map (cleanSlot format)).filter slotKept := by
  rw [removeManaged_eq hf, slotOf_editHooks, slotOf_hooks]
  cases h : hooksOf target with
  | none => rfl
  | some hooks => exact fieldOf_cleanHooks (distinct_hooksOf hw h)

theorem commandsIn_eq_nil {slot : Option Json} :
    commandsIn keep slot = [] ↔ ∀ v, slot = some v → walkCommands keep v = [] := by
  cases slot <;> simp [commandsIn]

/-- A slot without entries has no commands. -/
theorem commandsIn_slotKept (slot : Option Json) :
    commandsIn keep (slot.filter slotKept) = commandsIn keep slot := by
  cases slot with
  | none => rfl
  | some v =>
    cases v with
    | arr items => cases items <;> rfl
    | _ => rfl

theorem slotEntries_slotKept (slot : Option Json) :
    slotEntries (slot.filter slotKept) = slotEntries slot := by
  cases slot with
  | none => rfl
  | some v =>
    cases v with
    | arr items => cases items <;> rfl
    | _ => rfl

theorem walkItems_filter (p : Json → Bool) (items : List Json) :
    walkItems keep (items.filter p) =
      items.flatMap fun v => if p v = true then walkCommands keep v else [] := by
  induction items with
  | nil => rfl
  | cons v rest ih =>
    by_cases h : p v = true
    · simp [h, walkItems, ih]
    · simp [h, ih]

theorem walkItems_filter_sublist (p : Json → Bool) (items : List Json) :
    (walkItems keep items).Sublist (walkItems keep (items.filter p)) ↔
      ∀ v ∈ items, p v = false → walkCommands keep v = [] := by
  rw [walkItems_filter, walkItems_eq, flatMap_sublist_iff]
  · refine forall₂_congr fun v _ => ?_
    cases hp : p v with
    | true => simp
    | false =>
      rw [if_neg Bool.false_ne_true]
      exact ⟨fun h _ => h.symm, fun h => (h rfl).symm⟩
  · intro v _
    split
    · exact List.Sublist.refl _
    · exact List.nil_sublist _

/-! Groups. -/

/-- What `retainHooks` does to the hooks of a group. -/
def retainManaged : Json → Json
  | .arr hooks => .arr (hooks.filter fun hook => !hookManaged hook)
  | v => v

theorem retainHooks_obj (fields : Fields) :
    retainHooks (.obj fields) = .obj (modifyField "hooks" retainManaged fields) := rfl

theorem getArray_retainHooks (group : Json) :
    (retainHooks group).getArray "hooks" =
      (group.getArray "hooks").map fun hooks => hooks.filter fun hook => !hookManaged hook := by
  cases group with
  | obj fields =>
    have hfield : fieldOf "hooks" (modifyField "hooks" retainManaged fields) =
        (fieldOf "hooks" fields).map retainManaged := by
      rw [fieldOf_modifyField, if_pos rfl]
    rw [retainHooks_obj]
    simp only [getArray, Json.get, asObject, Option.bind_some, hfield]
    cases fieldOf "hooks" fields with
    | none => rfl
    | some v => cases v <;> rfl
  | _ => rfl

theorem hasHooks_retainHooks (group : Json) :
    hasHooks (retainHooks group) = (group.getArray "hooks").any fun hooks =>
      !hooks.all hookManaged := by
  rw [hasHooks, getArray_retainHooks]
  cases group.getArray "hooks" with
  | none => rfl
  | some hooks =>
    rw [Option.map_some, Option.any_some, Option.any_some, Bool.eq_iff_iff]
    simp

theorem walk_retainManaged_sublist (v : Json) :
    (walkCommands keep (retainManaged v)).Sublist (walkCommands keep v) := by
  cases v with
  | arr hooks =>
    simp only [retainManaged, walkCommands, walkItems_eq]
    exact List.filter_sublist.flatMap _
  | _ => exact List.Sublist.refl _

theorem walk_retainHooks_sublist (group : Json) :
    (walkCommands keep (retainHooks group)).Sublist (walkCommands keep group) := by
  cases group with
  | obj fields =>
    have hcommand : fieldOf "command" (modifyField "hooks" retainManaged fields) =
        fieldOf "command" fields := by
      rw [fieldOf_modifyField, if_neg (by decide)]
    rw [retainHooks_obj, walkCommands, walkCommands, hcommand]
    exact (List.Sublist.refl _).append
      (walkFields_modifyField_sublist walk_retainManaged_sublist fields)
  | _ => exact List.Sublist.refl _

/-- Taking the managed hooks out of a group keeps the commands exactly if the hooks taken out
have none. -/
theorem walk_retainHooks_eq {group : Json} {hooks : List Json}
    (h : group.getArray "hooks" = some hooks) :
    walkCommands keep (retainHooks group) = walkCommands keep group ↔
      ∀ hook ∈ hooks, hookManaged hook = true → walkCommands keep hook = [] := by
  cases group with
  | obj fields =>
    obtain ⟨v, hv, harr⟩ := Option.bind_eq_some_iff.1 h
    have hfield : fieldOf "hooks" fields = some v := hv
    have hcommand : fieldOf "command" (modifyField "hooks" retainManaged fields) =
        fieldOf "command" fields := by
      rw [fieldOf_modifyField, if_neg (by decide)]
    cases v with
    | arr hooks' =>
      obtain rfl := Option.some.inj harr
      rw [retainHooks_obj, walkCommands, walkCommands, hcommand, List.append_right_inj,
        walkFields_modifyField_eq hfield]
      have hsub : (walkCommands keep (retainManaged (.arr hooks'))).Sublist _ :=
        walk_retainManaged_sublist (.arr hooks')
      have hiff :
          walkCommands keep (retainManaged (.arr hooks')) = walkCommands keep (.arr hooks') ↔
          (walkItems keep hooks').Sublist
            (walkItems keep (hooks'.filter fun hook => !hookManaged hook)) := by
        constructor
        · intro heq
          simp only [retainManaged, walkCommands] at heq
          rw [heq]
        · intro hsup
          exact hsub.antisymm hsup
      rw [hiff, walkItems_filter_sublist]
      simp
    | _ => cases harr
  | _ => cases h

/-- The commands of a group after a removal. -/
def groupCommands (keep : String → Bool) (group : Json) : List String :=
  if hasHooks (retainHooks group) = true then walkCommands keep (retainHooks group) else []

theorem walk_removeGroups (groups : List Json) :
    walkCommands keep (removeGroups (.arr groups)) = groups.flatMap (groupCommands keep) := by
  rw [removeGroups, walkCommands, walkItems_filter, List.flatMap_map]
  rfl

theorem groupCommands_sublist (group : Json) :
    (groupCommands keep group).Sublist (walkCommands keep group) := by
  unfold groupCommands
  split
  · exact walk_retainHooks_sublist group
  · exact List.nil_sublist _

theorem groupCommands_eq_iff (group : Json) :
    groupCommands foreign group = walkCommands foreign group ↔ GroupSafe group := by
  unfold groupCommands GroupSafe
  rw [hasHooks_retainHooks]
  cases h : group.getArray "hooks" with
  | none =>
    simp only [Option.any_none, Bool.false_eq_true, if_false]
    exact eq_comm
  | some hooks =>
    simp only [Option.any_some]
    by_cases hall : hooks.all hookManaged = true
    · simp only [hall, Bool.not_true, Bool.false_eq_true, if_false, if_true]
      exact eq_comm
    · simp only [hall, Bool.not_false, Bool.false_eq_true, if_false, if_true]
      exact walk_retainHooks_eq h

/-! Slots. -/

/-- A removal takes commands out of a slot; it keeps the foreign ones exactly if the slot is
safe. -/
theorem cleanSlot_sublist_iff (format : ConfigFormat) (v : Json) :
    (walkCommands foreign v).Sublist (walkCommands foreign (cleanSlot format v)) ↔
      SlotSafe format v := by
  cases format with
  | antigravityNamedHooks => cases v <;> simp [cleanSlot, SlotSafe]
  | hooksJson =>
    cases v with
    | arr entries =>
      simp only [cleanSlot, removeEntries, walkCommands, walkItems_filter_sublist, SlotSafe]
      simp
    | _ => simp [cleanSlot, removeEntries, SlotSafe]
  | claudeSettings =>
    cases v with
    | arr groups =>
      have hsub : ∀ group ∈ groups, (groupCommands foreign group).Sublist
          (walkCommands foreign group) := fun group _ => groupCommands_sublist group
      rw [cleanSlot, walk_removeGroups, walkCommands, walkItems_eq, flatMap_sublist_iff hsub]
      exact forall₂_congr fun group _ => groupCommands_eq_iff group
    | _ => simp [cleanSlot, removeGroups, SlotSafe]

/-- What is left in a group once its managed hooks are taken out. -/
theorem walk_retainHooks_eq_nil {group : Json} (hw : group.WellFormed) {hooks : List Json}
    (h : group.getArray "hooks" = some hooks) :
    walkCommands isManagedCommand (retainHooks group) = [] ↔
      (∀ hook ∈ hooks, hookManaged hook = false → walkCommands isManagedCommand hook = []) ∧
      hookManaged group = false ∧
      ∀ key v, group.get key = some v → key ≠ "hooks" → walkCommands isManagedCommand v = [] := by
  cases group with
  | obj fields =>
    obtain ⟨w, hfield, harr⟩ := Option.bind_eq_some_iff.1 h
    cases w with
    | arr hooks' =>
      obtain rfl := Option.some.inj harr
      have hd : DistinctFields (modifyField "hooks" retainManaged fields) := by
        unfold DistinctFields
        rw [names_modifyField]
        exact hw.1
      have hhooks : fieldOf "hooks" (modifyField "hooks" retainManaged fields) =
          some (.arr (hooks'.filter fun hook => !hookManaged hook)) := by
        rw [fieldOf_modifyField, if_pos rfl, show fieldOf "hooks" fields = _ from hfield]
        rfl
      have hother : ∀ key, key ≠ "hooks" →
          fieldOf key (modifyField "hooks" retainManaged fields) = fieldOf key fields :=
        fun key hkey => by rw [fieldOf_modifyField, if_neg hkey]
      have hkept : walkCommands isManagedCommand
          (.arr (hooks'.filter fun hook => !hookManaged hook)) = [] ↔
          ∀ hook ∈ hooks', hookManaged hook = false → walkCommands isManagedCommand hook = [] := by
        simp [walkCommands, walkItems_eq_nil]
      rw [retainHooks_obj, walk_obj_eq_nil hd, hother "command" (by decide)]
      constructor
      · rintro ⟨hcommand, hall⟩
        exact ⟨hkept.1 (hall "hooks" _ hhooks), hcommand,
          fun key v hv hkey => hall key v ((hother key hkey).trans hv)⟩
      · rintro ⟨hhook, hcommand, hall⟩
        refine ⟨hcommand, fun key v hv => ?_⟩
        by_cases hkey : key = "hooks"
        · subst hkey
          rw [hhooks] at hv
          rw [← Option.some.inj hv]
          exact hkept.2 hhook
        · exact hall key v ((hother key hkey).symm.trans hv) hkey
    | _ => cases harr
  | _ => cases h

/-- Nothing managed stays in a group exactly if the group is clean. -/
theorem groupCommands_managed_iff {group : Json} (hw : group.WellFormed) :
    groupCommands isManagedCommand group = [] ↔ GroupClean group := by
  unfold groupCommands GroupClean
  rw [hasHooks_retainHooks]
  cases h : group.getArray "hooks" with
  | none => simp
  | some hooks =>
    simp only [Option.any_some]
    by_cases hall : hooks.all hookManaged = true
    · simp only [hall, Bool.not_true, Bool.false_eq_true, if_false, true_iff]
      intro hooks' heq hnot
      rw [← Option.some.inj heq, hall] at hnot
      cases hnot
    · simp only [hall, Bool.not_false, if_true]
      rw [walk_retainHooks_eq_nil hw h]
      exact ⟨fun hnil hooks' heq _ => Option.some.inj heq ▸ hnil,
        fun hclean => hclean hooks rfl (Bool.eq_false_iff.2 hall)⟩

theorem cleanSlot_managed_iff (format : ConfigFormat) {v : Json} (hw : v.WellFormed) :
    walkCommands isManagedCommand (cleanSlot format v) = [] ↔ SlotClean format v := by
  cases format with
  | antigravityNamedHooks => cases v <;> simp [cleanSlot, SlotClean]
  | hooksJson =>
    cases v with
    | arr entries =>
      simp only [cleanSlot, removeEntries, walkCommands, walkItems_eq_nil, SlotClean]
      simp
    | _ => simp [cleanSlot, removeEntries, SlotClean]
  | claudeSettings =>
    cases v with
    | arr groups =>
      rw [cleanSlot, walk_removeGroups, List.flatMap_eq_nil_iff]
      exact forall₂_congr fun group hgroup => groupCommands_managed_iff (hw.mem hgroup)
    | _ => simp [cleanSlot, removeGroups, SlotClean]

end Remove

/-! ## The hooks formats -/

section HooksFormats

variable {format : ConfigFormat} {target template after : Json}

/-- The entries of a slot have its foreign commands unless the slot is no array. -/
theorem sublist_slotEntries_iff (slot : Option Json) :
    (commandsIn foreign slot).Sublist (walkItems foreign (slotEntries slot)) ↔
      ∀ v, slot = some v → v.asArray = none → walkCommands foreign v = [] := by
  cases slot with
  | none => simp [commandsIn]
  | some v =>
    cases v with
    | arr items => simp [commandsIn, slotEntries, walkCommands, asArray]
    | _ => simp [commandsIn, slotEntries, walkItems, asArray]

theorem sublist_cleanSlot_iff (slot : Option Json) :
    (commandsIn foreign slot).Sublist (commandsIn foreign (slot.map (cleanSlot format))) ↔
      ∀ v, slot = some v → SlotSafe format v := by
  cases slot with
  | none => simp [commandsIn]
  | some v => simpa [commandsIn] using cleanSlot_sublist_iff format v

theorem asArray_cleanSlot {v : Json} (h : v.asArray = none) : cleanSlot format v = v := by
  cases format with
  | antigravityNamedHooks => rfl
  | hooksJson =>
    cases v with
    | arr items => cases h
    | _ => rfl
  | claudeSettings =>
    cases v with
    | arr items => cases h
    | _ => rfl

theorem asArray_cleanSlot_arr (format : ConfigFormat) (items : List Json) :
    ∃ kept, cleanSlot format (.arr items) = .arr kept := by
  cases format <;> exact ⟨_, rfl⟩

/-- Both at once : the slot is cleaned and then written to. -/
theorem sublist_repaired_iff (slot : Option Json) :
    (commandsIn foreign slot).Sublist
        (walkItems foreign (slotEntries (slot.map (cleanSlot format)))) ↔
      ∀ v, slot = some v →
        SlotSafe format v ∧ (v.asArray = none → walkCommands foreign v = []) := by
  cases slot with
  | none => simp [commandsIn]
  | some v =>
    have hclean := cleanSlot_sublist_iff format v
    cases hv : v.asArray with
    | none =>
      have hslot := sublist_slotEntries_iff (some v)
      rw [asArray_cleanSlot hv] at hclean
      have hsafe : SlotSafe format v := hclean.1 (List.Sublist.refl _)
      rw [Option.map_some, asArray_cleanSlot hv, hslot]
      simp [hv, hsafe]
    | some items =>
      cases v with
      | arr items' =>
        obtain ⟨kept, hkept⟩ := asArray_cleanSlot_arr format items'
        rw [hkept] at hclean
        simpa [hkept, commandsIn, slotEntries, walkCommands, asArray] using hclean
      | _ => cases hv

section

variable (hf : format ≠ .antigravityNamedHooks)

include hf

theorem preserves_of_slots
    (houtside : ∀ key v, target.get key = some v → key ≠ "hooks" → after.get key = some v) :
    Preserves format target after ↔ ∀ event,
      (commandsIn foreign (slotOf target "hooks" event)).Sublist
        (commandsIn foreign (slotOf after "hooks" event)) := by
  cases format with
  | antigravityNamedHooks => exact absurd rfl hf
  | hooksJson =>
    exact ⟨fun h event => h.commands "hooks" event rfl,
      fun h => ⟨houtside, fun block event hblock => hblock ▸ h event⟩⟩
  | claudeSettings =>
    exact ⟨fun h event => h.commands "hooks" event rfl,
      fun h => ⟨houtside, fun block event hblock => hblock ▸ h event⟩⟩

theorem mergeSafe_iff :
    MergeSafe format target template ↔ ∀ event, Touched format template event →
      ∀ v, slotOf target "hooks" event = some v → v.asArray = none →
        walkCommands foreign v = [] := by
  cases format with
  | antigravityNamedHooks => exact absurd rfl hf
  | hooksJson => exact ⟨fun h event ht v => h event v ht, fun h event v ht => h event ht v⟩
  | claudeSettings => exact ⟨fun h event ht v => h event v ht, fun h event v ht => h event ht v⟩

theorem removeSafe_iff :
    RemoveSafe format target ↔
      ∀ event v, slotOf target "hooks" event = some v → SlotSafe format v := by
  cases format with
  | antigravityNamedHooks => exact absurd rfl hf
  | _ => exact Iff.rfl

theorem get_removeManaged {key : String} (hkey : key ≠ "hooks") :
    (removeManaged format target).1.get key = target.get key := by
  cases format with
  | antigravityNamedHooks => exact absurd rfl hf
  | hooksJson => exact get_editHooks _ hkey
  | claudeSettings => exact get_editHooks _ hkey

theorem install_preserves_iff (ht : walkCommands foreign template = []) :
    Preserves format target (merge format target template).1 ↔
      MergeSafe format target template := by
  rw [preserves_of_slots hf fun key v hv hkey => get_merge hf hkey hv, mergeSafe_iff hf]
  refine forall_congr' fun event => ?_
  obtain ⟨hin, hout⟩ := foreign_merge target hf ht event
  by_cases htouched : Touched format template event
  · rw [hin htouched, sublist_slotEntries_iff]
    exact ⟨fun h _ => h, fun h => h htouched⟩
  · rw [hout htouched]
    exact ⟨fun _ h => absurd h htouched, fun _ => List.Sublist.refl _⟩

theorem remove_preserves_iff (hw : target.WellFormed) :
    Preserves format target (removeManaged format target).1 ↔ RemoveSafe format target := by
  rw [preserves_of_slots hf fun key v hv hkey => (get_removeManaged hf hkey).trans hv,
    removeSafe_iff hf]
  refine forall_congr' fun event => ?_
  rw [slotOf_removed hf hw, commandsIn_slotKept, sublist_cleanSlot_iff]

theorem repair_preserves_iff (hw : target.WellFormed) (ht : walkCommands foreign template = []) :
    Preserves format target (merge format (removeManaged format target).1 template).1 ↔
      RemoveSafe format target ∧ MergeSafe format target template := by
  have houtside : ∀ key v, target.get key = some v → key ≠ "hooks" →
      (merge format (removeManaged format target).1 template).1.get key = some v :=
    fun key v hv hkey => get_merge hf hkey ((get_removeManaged hf hkey).trans hv)
  rw [preserves_of_slots hf houtside, removeSafe_iff hf, mergeSafe_iff hf, ← forall_and]
  refine forall_congr' fun event => ?_
  obtain ⟨hin, hout⟩ := foreign_merge (removeManaged format target).1 hf ht event
  by_cases htouched : Touched format template event
  · rw [hin htouched, slotOf_removed hf hw, slotEntries_slotKept, sublist_repaired_iff]
    exact ⟨fun h => ⟨fun v hv => (h v hv).1, fun _ v hv => (h v hv).2⟩,
      fun h v hv => ⟨h.1 v hv, h.2 htouched v hv⟩⟩
  · rw [hout htouched, slotOf_removed hf hw, commandsIn_slotKept, sublist_cleanSlot_iff]
    exact ⟨fun h => ⟨h, fun hin => absurd hin htouched⟩, fun h => h.1⟩

end

/-- A removal does not touch a command of the hooks object itself. -/
theorem asStr_cleaned (v : Json) :
    ((some (cleanSlot format v)).filter slotKept).bind asStr = v.asStr := by
  cases hv : v.asArray with
  | none =>
    rw [asArray_cleanSlot hv]
    cases v with
    | arr items => cases hv
    | _ => rfl
  | some items =>
    cases v with
    | arr items' =>
      obtain ⟨kept, hkept⟩ := asArray_cleanSlot_arr format items'
      rw [hkept]
      cases kept <;> rfl
    | _ => cases hv

/-- Nothing managed is left in a hooks object exactly if its slots are clean. -/
theorem walk_cleanHooks_eq_nil (format : ConfigFormat) {hooks : Fields}
    (hw : (Json.obj hooks).WellFormed) :
    walkCommands isManagedCommand (.obj (cleanHooks format hooks)) = [] ↔
      hookManaged (.obj hooks) = false ∧
        ∀ event v, fieldOf event hooks = some v → SlotClean format v := by
  have hcommand : ((fieldOf "command" (cleanHooks format hooks)).bind asStr).any isManagedCommand =
      hookManaged (.obj hooks) := by
    rw [fieldOf_cleanHooks hw.1]
    show _ = ((fieldOf "command" hooks).bind asStr).any isManagedCommand
    cases fieldOf "command" hooks with
    | none => rfl
    | some v => rw [Option.map_some, asStr_cleaned, Option.bind_some]
  rw [walk_obj_eq_nil (distinct_cleanHooks hw.1), hcommand]
  refine and_congr_right fun _ => forall_congr' fun event => ?_
  rw [← commandsIn_eq_nil, fieldOf_cleanHooks hw.1, commandsIn_slotKept, commandsIn_eq_nil]
  cases h : fieldOf event hooks with
  | none => simp
  | some v =>
    have hclean := cleanSlot_managed_iff format (hw.2.mem (mem_of_fieldOf h))
    simpa using hclean

theorem remove_complete_iff (hf : format ≠ .antigravityNamedHooks) (hw : target.WellFormed) :
    NoManaged format (removeManaged format target).1 ↔ RemoveComplete format target := by
  have hhooks : (∀ hooks, (editHooks (cleanHooks format) target).get "hooks" = some hooks →
      walkCommands isManagedCommand hooks = []) ↔
      ∀ hooks, target.get "hooks" = some hooks →
        (hooks.asObject = none → walkCommands isManagedCommand hooks = []) ∧
        hookManaged hooks = false ∧
        ∀ event v, hooks.get event = some v → SlotClean format v := by
    cases h : target.get "hooks" with
    | none => simp [get_hooks_editHooks, hooksOf, h]
    | some v =>
      cases v with
      | obj hooks =>
        have hobj : hooksOf target = some hooks := by simp [hooksOf, h, asObject]
        have hget : (editHooks (cleanHooks format) target).get "hooks" =
            some (.obj (cleanHooks format hooks)) := by
          rw [get_hooks_editHooks, hobj]
        have hclean := walk_cleanHooks_eq_nil format (hw.get h)
        simp only [hget, Option.some.injEq, forall_eq', hclean, asObject]
        exact ⟨fun hc => ⟨fun hnone => (by cases hnone), hc⟩, fun hc => hc.2⟩
      | _ =>
        simp only [get_hooks_editHooks, hooksOf, h, Option.bind_some, asObject, Option.some.injEq,
          forall_eq', true_imp_iff]
        exact ⟨fun hc => ⟨hc, rfl, fun _ _ hv => (by cases hv)⟩, fun hc => hc.1⟩
  rw [removeManaged_eq hf]
  cases format with
  | antigravityNamedHooks => exact absurd rfl hf
  | hooksJson => exact hhooks
  | claudeSettings => exact hhooks

end HooksFormats

end Connector

end LlmNotch
