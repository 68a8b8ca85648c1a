import LlmNotch.ConnectorEdits
import LlmNotch.DiffReading
import LlmNotch.SettledFolds

/-!
# Merging twice

Every step of a merge settles a part of the document : a hook its list of hooks
(`settles_pushHook`), an entry its slot (`settles_pushEntry`), the hooks of a template group the
first group with its matcher (`settles_mergeGroup`), a template event its slot
(`settles_slots`). So the fold that merges a template changes nothing the second time, and a
second preview of an install has no difference to show if the printed document is read back as it
was (`merge_idempotent`). The reader of numbers is not exact : there are floats it reads from their
own text as their neighbour, and then the second preview shows a change (`second_install_differs`).
-/

namespace LlmNotch

namespace Connector

open Json

/-! ## Hooks and entries -/

theorem settles_pushHook : Settles pushHook (fun hook => (hookCommand hook).isSome = true)
    fun hook hooks => ∃ h ∈ hooks, hookCommand h = some ((hookCommand hook).getD "") where
  still := by
    rintro hooks hook ⟨h, hh, hcommand⟩
    rw [pushHook, if_pos]
    simpa using ⟨h, hh, hcommand⟩
  settle := by
    intro hook hsome hooks
    rw [pushHook]
    split
    · rename_i hany
      simpa using hany
    · obtain ⟨command, hcommand⟩ := Option.isSome_iff_exists.1 hsome
      exact ⟨hook, by simp, by simp [hcommand]⟩
  keep := by
    rintro hooks hook ⟨h, hh, hcommand⟩ other
    refine ⟨h, ?_, hcommand⟩
    rw [pushHook]
    split
    · exact hh
    · exact List.mem_append_left _ hh

theorem settles_pushEntry : Settles pushEntry (fun _ => True) fun entry entries =>
    ∀ command, entryCommand entry = some command →
      ∃ e ∈ entries, entryCommand e = some command where
  still := by
    intro entries entry h
    rw [pushEntry]
    split
    · rename_i command hcommand
      rw [if_pos]
      simpa using h command hcommand
    · rfl
  settle := by
    intro entry _ entries command hcommand
    rw [pushEntry, hcommand]
    dsimp only
    split
    · rename_i hany
      simpa using hany
    · exact ⟨entry, by simp, hcommand⟩
  keep := by
    intro entries entry h other command hcommand
    obtain ⟨e, he, hsame⟩ := h command hcommand
    refine ⟨e, ?_, hsame⟩
    rw [pushEntry]
    split
    · split
      · exact he
      · exact List.mem_append_left _ he
    · exact he

/-! ## Groups -/

/-- The managed hooks of a group. -/
def managedHooks (group : Json) : List Json :=
  ((group.getArray "hooks").getD []).filter hookManaged

theorem managedHooks_isSome (group : Json) :
    ∀ hook ∈ managedHooks group, (hookCommand hook).isSome = true := by
  intro hook hhook
  have hmanaged := (List.mem_filter.1 hhook).2
  obtain ⟨command, hcommand, -⟩ := (Option.any_eq_true _ _).1 hmanaged
  rw [hcommand]
  rfl

/-- The list of hooks of a group, with more hooks. -/
def growHooks (managed : List Json) : Option Json → Json
  | none => .arr (managed.foldl pushHook [])
  | some (.arr hooks) => .arr (managed.foldl pushHook hooks)
  | some v => v

theorem extendGroup_obj (managed : List Json) (fields : Fields) :
    extendGroup managed (.obj fields) =
      .obj (alterField "hooks" (growHooks managed) fields) := by
  rw [extendGroup]
  rw [modifyField_ensureField]
  congr 2
  funext slot
  cases slot with
  | none => rfl
  | some v => cases v <;> rfl

theorem matcherOf_extendGroup (managed : List Json) (group : Json) :
    matcherOf (extendGroup managed group) = matcherOf group := by
  cases group with
  | obj fields =>
    rw [extendGroup_obj]
    simp only [matcherOf, getStr, Json.get, asObject, Option.bind_some, fieldOf_alterField]
    rw [if_neg (by decide)]
  | _ => rfl

/-- A group that extending by these hooks leaves alone. -/
def GroupSettled (managed : List Json) (group : Json) : Prop :=
  ∀ fields, group = .obj fields → ∃ v, fieldOf "hooks" fields = some v ∧
    ∀ hooks, v = .arr hooks → ∀ hook ∈ managed,
      ∃ h ∈ hooks, hookCommand h = some ((hookCommand hook).getD "")

variable {managed : List Json}

theorem extendGroup_still {group : Json} (h : GroupSettled managed group) :
    extendGroup managed group = group := by
  cases group with
  | obj fields =>
    obtain ⟨v, hv, hsettled⟩ := h fields rfl
    rw [extendGroup_obj, alterField_same hv]
    cases v with
    | arr hooks =>
      rw [growHooks, settles_pushHook.foldl_still (hsettled hooks rfl)]
    | _ => rfl
  | _ => rfl

theorem hooks_extendGroup (managed : List Json) (fields : Fields) :
    fieldOf "hooks" (alterField "hooks" (growHooks managed) fields) =
      some (growHooks managed (fieldOf "hooks" fields)) := by
  rw [fieldOf_alterField, if_pos rfl]

theorem groupSettled_extendGroup (hmanaged : ∀ hook ∈ managed, (hookCommand hook).isSome = true)
    (group : Json) : GroupSettled managed (extendGroup managed group) := by
  cases group with
  | obj fields =>
    rw [extendGroup_obj]
    intro fields' hfields'
    obtain rfl := Json.obj.inj hfields'
    refine ⟨_, hooks_extendGroup managed fields, fun hooks hhooks => ?_⟩
    cases hslot : fieldOf "hooks" fields with
    | none =>
      rw [hslot] at hhooks
      obtain rfl := Json.arr.inj hhooks
      exact settles_pushHook.foldl_settle hmanaged []
    | some v =>
      rw [hslot] at hhooks
      cases v with
      | arr old =>
        obtain rfl := Json.arr.inj hhooks
        exact settles_pushHook.foldl_settle hmanaged old
      | _ => cases hhooks
  | _ => intro fields hfields; cases hfields

theorem GroupSettled.extend {group : Json} (h : GroupSettled managed group) (more : List Json) :
    GroupSettled managed (extendGroup more group) := by
  cases group with
  | obj fields =>
    obtain ⟨v, hv, hsettled⟩ := h fields rfl
    rw [extendGroup_obj]
    intro fields' hfields'
    obtain rfl := Json.obj.inj hfields'
    refine ⟨_, hooks_extendGroup more fields, fun hooks hhooks hook hhook => ?_⟩
    rw [hv] at hhooks
    cases v with
    | arr old =>
      obtain rfl := Json.arr.inj hhooks
      exact settles_pushHook.foldl_keep (hsettled old rfl hook hhook) more
    | _ => cases hhooks
  | _ => intro fields hfields; cases hfields

/-! ## The first group with a matcher -/

section First

variable {α : Type} {p q : α → Bool} {f : α → α} {xs ys : List α}

theorem modifyFirst_eq_none : modifyFirst p f xs = none ↔ xs.find? p = none := by
  induction xs with
  | nil => simp [modifyFirst]
  | cons x xs ih =>
    rw [modifyFirst, List.find?_cons]
    cases p x with
    | true => simp
    | false => simpa using ih

theorem modifyFirst_still {x : α} (h : xs.find? p = some x) (hx : f x = x) :
    modifyFirst p f xs = some xs := by
  induction xs with
  | nil => cases h
  | cons y xs ih =>
    rw [List.find?_cons] at h
    rw [modifyFirst]
    cases hy : p y with
    | true =>
      rw [hy] at h
      cases h
      rw [if_pos rfl, hx]
    | false =>
      rw [hy] at h
      rw [if_neg (by simp), ih h]
      rfl

/-- The element that was changed is still the first. -/
theorem find?_modifyFirst_self (hp : ∀ x, p (f x) = p x) (h : modifyFirst p f xs = some ys) :
    ys.find? p = (xs.find? p).map f := by
  induction xs generalizing ys with
  | nil => cases h
  | cons x xs ih =>
    rw [modifyFirst] at h
    cases hx : p x with
    | true =>
      rw [hx, if_pos rfl] at h
      cases h
      rw [List.find?_cons_of_pos (by rw [hp, hx]), List.find?_cons_of_pos hx, Option.map_some]
    | false =>
      rw [hx, if_neg (by simp)] at h
      obtain ⟨zs, hzs, rfl⟩ := Option.map_eq_some_iff.1 h
      rw [List.find?_cons_of_neg (by simp [hx]), List.find?_cons_of_neg (by simp [hx]), ih hzs]

/-- An element that is looked for by something else stays the first. -/
theorem find?_modifyFirst_other (hpq : ∀ x, p x = true → q x = false)
    (hq : ∀ x, q (f x) = q x) (h : modifyFirst p f xs = some ys) : ys.find? q = xs.find? q := by
  induction xs generalizing ys with
  | nil => cases h
  | cons x xs ih =>
    rw [modifyFirst] at h
    cases hx : p x with
    | true =>
      rw [hx, if_pos rfl] at h
      cases h
      have hno := hpq x hx
      rw [List.find?_cons_of_neg (by simp [hq, hno]), List.find?_cons_of_neg (by simp [hno])]
    | false =>
      rw [hx, if_neg (by simp)] at h
      obtain ⟨zs, hzs, rfl⟩ := Option.map_eq_some_iff.1 h
      rw [List.find?_cons, List.find?_cons, ih hzs]

end First

theorem matcherOf_newGroup (matcher : String) (managed : List Json) :
    matcherOf (newGroup matcher managed) = matcher := by
  rw [newGroup]
  split
  · rename_i hempty
    have h : matcher = "" := by simpa using hempty
    rw [h]
    rfl
  · rfl

theorem groupSettled_newGroup (hmanaged : ∀ hook ∈ managed, (hookCommand hook).isSome = true)
    (matcher : String) : GroupSettled managed (newGroup matcher managed) := by
  intro fields hfields
  rw [newGroup] at hfields
  obtain rfl := Json.obj.inj hfields
  refine ⟨.arr managed, by simp [fieldOf], fun hooks hhooks hook hhook => ⟨hook, ?_, ?_⟩⟩
  · rw [← Json.arr.inj hhooks]
    exact hhook
  · obtain ⟨command, hcommand⟩ := Option.isSome_iff_exists.1 (hmanaged hook hhook)
    simp [hcommand]

/-- The groups have the managed hooks of a template group. -/
def GroupsSettled (templateGroup : Json) (groups : List Json) : Prop :=
  managedHooks templateGroup = [] ∨ ∃ group,
    groups.find? (fun group => matcherOf group = matcherOf templateGroup) = some group ∧
      GroupSettled (managedHooks templateGroup) group

theorem mergeGroup_eq (groups : List Json) (templateGroup : Json) :
    mergeGroup groups templateGroup =
      if managedHooks templateGroup = [] then groups
      else (modifyFirst (fun group => matcherOf group = matcherOf templateGroup)
        (extendGroup (managedHooks templateGroup)) groups).getD
          (groups ++ [newGroup (matcherOf templateGroup) (managedHooks templateGroup)]) := by
  unfold mergeGroup managedHooks
  simp only [List.isEmpty_iff]
  split_ifs
  · rfl
  · split
    · rename_i h
      rw [h]
      rfl
    · rename_i h
      rw [h]
      rfl

/-- The groups after a template group, by the first one with its matcher. -/
theorem find?_mergeGroup {groups : List Json} {templateGroup : Json}
    (hne : managedHooks templateGroup ≠ []) (matcher : String) :
    (mergeGroup groups templateGroup).find? (fun group => matcherOf group = matcher) =
      if matcherOf templateGroup = matcher then
        some (((groups.find? fun group => matcherOf group = matcher).map
          (extendGroup (managedHooks templateGroup))).getD
            (newGroup matcher (managedHooks templateGroup)))
      else groups.find? fun group => matcherOf group = matcher := by
  rw [mergeGroup_eq, if_neg hne]
  cases hfirst : modifyFirst (fun group => matcherOf group = matcherOf templateGroup)
      (extendGroup (managedHooks templateGroup)) groups with
  | none =>
    have hnone := modifyFirst_eq_none.1 hfirst
    rw [Option.getD_none, List.find?_append]
    split_ifs with hm
    · subst hm
      rw [hnone]
      simp [matcherOf_newGroup]
    · have hnew : List.find? (fun group => decide (matcherOf group = matcher))
          [newGroup (matcherOf templateGroup) (managedHooks templateGroup)] = none := by
        simp [matcherOf_newGroup, hm]
      rw [hnew, Option.or_none]
  | some changed =>
    rw [Option.getD_some]
    split_ifs with hm
    · subst hm
      have hself := find?_modifyFirst_self (fun group => by rw [matcherOf_extendGroup]) hfirst
      rw [hself]
      cases hfound : groups.find? fun group => matcherOf group = matcherOf templateGroup with
      | none =>
        rw [modifyFirst_eq_none.2 hfound] at hfirst
        cases hfirst
      | some group => rfl
    · refine find?_modifyFirst_other (fun group hgroup => ?_)
        (fun group => by rw [matcherOf_extendGroup]) hfirst
      have heq : matcherOf group = matcherOf templateGroup := by simpa using hgroup
      simpa [heq] using hm

theorem settles_mergeGroup : Settles mergeGroup (fun _ => True) GroupsSettled where
  still := by
    rintro groups templateGroup (hnil | ⟨group, hfound, hsettled⟩)
    · rw [mergeGroup_eq, if_pos hnil]
    · rw [mergeGroup_eq]
      split_ifs
      · rfl
      · rw [modifyFirst_still hfound (extendGroup_still hsettled), Option.getD_some]
  settle := by
    intro templateGroup _ groups
    by_cases hnil : managedHooks templateGroup = []
    · exact .inl hnil
    · refine .inr ⟨_, (find?_mergeGroup hnil _).trans (if_pos rfl), ?_⟩
      have hsome := managedHooks_isSome templateGroup
      cases groups.find? fun group => matcherOf group = matcherOf templateGroup with
      | none => exact groupSettled_newGroup hsome _
      | some group => exact groupSettled_extendGroup hsome group
  keep := by
    rintro groups templateGroup (hnil | ⟨group, hfound, hsettled⟩) other
    · exact .inl hnil
    · by_cases hother : managedHooks other = []
      · refine .inr ⟨group, ?_, hsettled⟩
        rw [mergeGroup_eq, if_pos hother]
        exact hfound
      · by_cases hm : matcherOf other = matcherOf templateGroup
        · refine .inr ⟨_, (find?_mergeGroup hother _).trans (if_pos hm), ?_⟩
          rw [hfound]
          exact hsettled.extend _
        · exact .inr ⟨group, ((find?_mergeGroup hother _).trans (if_neg hm)).trans hfound, hsettled⟩

/-! ## Slots -/

/-- The elements a template event merges into its slot. -/
def slotItems : ConfigFormat → Json → List Json
  | .hooksJson, v => (slotEntries (some v)).filter entryManaged
  | .claudeSettings, v => slotEntries (some v)
  | .antigravityNamedHooks, _ => []

/-- Merging one element into the entries of a slot. -/
def pushItem : ConfigFormat → List Json → Json → List Json
  | .hooksJson => pushEntry
  | .claudeSettings => mergeGroup
  | .antigravityNamedHooks => fun entries _ => entries

/-- Merging one template event. -/
def mergeSlot : ConfigFormat → Fields → String × Json → Fields
  | .hooksJson => mergeEvent
  | .claudeSettings => mergeGroups
  | .antigravityNamedHooks => fun hooks _ => hooks

theorem mergeSlot_eq (format : ConfigFormat) (hf : format ≠ .antigravityNamedHooks)
    (hooks : Fields) (e : String × Json) :
    mergeSlot format hooks e = if touches format e = true then
      alterSlot e.1 (fun slot => (slotItems format e.2).foldl (pushItem format) slot) hooks
      else hooks := by
  obtain ⟨event, v⟩ := e
  cases format with
  | antigravityNamedHooks => exact absurd rfl hf
  | hooksJson =>
    rw [mergeSlot, mergeEvent_eq]
    cases v <;> rfl
  | claudeSettings => cases v <;> rfl

theorem exists_settles_pushItem (format : ConfigFormat) :
    ∃ settled, Settles (pushItem format) (fun _ => True) settled := by
  cases format with
  | hooksJson => exact ⟨_, settles_pushEntry⟩
  | claudeSettings => exact ⟨_, settles_mergeGroup⟩
  | antigravityNamedHooks =>
    exact ⟨fun _ _ => True, fun _ => rfl, fun _ _ => trivial, fun _ _ => trivial⟩

/-- The slots of the hooks. -/
theorem settles_slots {format : ConfigFormat} (hf : format ≠ .antigravityNamedHooks)
    {settled : Json → List Json → Prop}
    (h : Settles (pushItem format) (fun _ => True) settled) :
    Settles (mergeSlot format) (fun _ => True) fun e hooks =>
      touches format e = true → ∃ entries, fieldOf e.1 hooks = some (.arr entries) ∧
        ∀ item ∈ slotItems format e.2, settled item entries where
  still := by
    intro hooks e hsettled
    rw [mergeSlot_eq format hf]
    split_ifs with htouch
    · obtain ⟨entries, hslot, hitems⟩ := hsettled htouch
      exact alterField_same hslot (congrArg Json.arr (h.foldl_still hitems))
    · rfl
  settle := by
    intro e _ hooks htouch
    refine ⟨_, ?_, h.foldl_settle (fun _ _ => trivial) (slotEntries (fieldOf e.1 hooks))⟩
    rw [mergeSlot_eq format hf, if_pos htouch, alterSlot, fieldOf_alterField, if_pos rfl]
  keep := by
    intro hooks e hsettled other htouch
    obtain ⟨entries, hslot, hitems⟩ := hsettled htouch
    rw [mergeSlot_eq format hf]
    split_ifs
    · rw [alterSlot, fieldOf_alterField]
      split_ifs with hsame
      · refine ⟨_, rfl, fun item hitem => ?_⟩
        rw [← hsame, hslot]
        exact h.foldl_keep (hitems item hitem) _
      · exact ⟨entries, hslot, hitems⟩
    · exact ⟨entries, hslot, hitems⟩

/-! ## Documents -/

section Documents

variable {target template : Json} {hooks : Fields}

theorem editHooks_same {edit : Fields → Fields} (h : hooksOf target = some hooks)
    (hedit : edit hooks = hooks) : editHooks edit target = target := by
  cases target with
  | obj root =>
    obtain ⟨v, hv, hobj⟩ := Option.bind_eq_some_iff.1 h
    cases v with
    | obj fields =>
      obtain rfl := Option.some.inj hobj
      have hsame : modifyField "hooks" (fun _ => .obj (edit fields)) root = root :=
        modifyField_same hv (by rw [hedit])
      simp only [editHooks, h]
      rw [hsame]
    | _ => cases hobj
  | _ => rfl

theorem withHooks_same (h : hooksOf target = some hooks) : withHooks target = target := by
  cases target with
  | obj root =>
    obtain ⟨v, hv, -⟩ := Option.bind_eq_some_iff.1 h
    rw [withHooks]
    exact congrArg Json.obj (ensureField_of_some hv)
  | _ => rfl

theorem addVersion_twice : addVersion template (addVersion template target) =
    addVersion template target := by
  cases hversion : template.get "version" with
  | none => simp only [addVersion, hversion]
  | some version =>
    cases target with
    | obj root =>
      have hfield : fieldOf "version" (ensureField "version" version root) =
          some ((fieldOf "version" root).getD version) := by
        rw [fieldOf_ensureField, if_pos rfl]
      simp only [addVersion, hversion]
      rw [ensureField_of_some hfield]
    | _ => simp only [addVersion, hversion]

theorem hooksOf_addVersion : hooksOf (addVersion template target) = hooksOf target := by
  rw [hooksOf, get_addVersion (by decide)]
  rfl

/-- What a merge adds to the root of a document besides its hooks. -/
def finish : ConfigFormat → Json → Json → Json
  | .hooksJson => addVersion
  | _ => fun _ merged => merged

theorem hooksOf_finish (format : ConfigFormat) :
    hooksOf (finish format template target) = hooksOf target := by
  cases format with
  | hooksJson => exact hooksOf_addVersion
  | _ => rfl

theorem finish_twice (format : ConfigFormat) :
    finish format template (finish format template target) = finish format template target := by
  cases format with
  | hooksJson => exact addVersion_twice
  | _ => rfl

/-- A merge of either hooks format. -/
theorem merge_eq {format : ConfigFormat} (hf : format ≠ .antigravityNamedHooks)
    (target template : Json) :
    (merge format target template).1 = match hooksOf template, hooksOf (withHooks target) with
      | some templateHooks, some _ => finish format template
          (editHooks (templateHooks.foldl (mergeSlot format)) (withHooks target))
      | _, _ => target := by
  cases format with
  | antigravityNamedHooks => exact absurd rfl hf
  | hooksJson =>
    simp only [merge, mergeHooksJson]
    cases hooksOf template <;> cases hooksOf (withHooks target) <;> rfl
  | claudeSettings =>
    simp only [merge, mergeClaudeSettings]
    cases hooksOf template <;> cases hooksOf (withHooks target) <;> rfl

theorem mergeHooks_twice {format : ConfigFormat} (hf : format ≠ .antigravityNamedHooks)
    (target template : Json) :
    (merge format (merge format target template).1 template).1 =
      (merge format target template).1 := by
  have hmerged := merge_eq hf target template
  cases htemplate : hooksOf template with
  | none =>
    have hsame (doc : Json) : (merge format doc template).1 = doc := by
      rw [merge_eq hf, htemplate]
    rw [hsame, hsame]
  | some templateHooks =>
    cases hhooks : hooksOf (withHooks target) with
    | none =>
      rw [htemplate, hhooks] at hmerged
      dsimp only at hmerged
      rw [hmerged, hmerged]
    | some hooks =>
      rw [htemplate, hhooks] at hmerged
      dsimp only at hmerged
      obtain ⟨settled, hsettles⟩ := exists_settles_pushItem format
      have hslots := settles_slots hf hsettles
      have hafter : hooksOf (merge format target template).1 =
          some (templateHooks.foldl (mergeSlot format) hooks) := by
        rw [hmerged, hooksOf_finish, hooksOf_editHooks, hhooks, Option.map_some]
      have hwith := withHooks_same hafter
      rw [merge_eq hf, htemplate, hwith, hafter]
      dsimp only
      rw [editHooks_same hafter (hslots.foldl_twice (fun _ _ => trivial) hooks), hmerged,
        finish_twice]

/-- Blocks of distinct names put into a file of named hooks twice. -/
theorem mergeNamed_twice (target : Json) (ht : template.WellFormed) :
    (merge .antigravityNamedHooks (merge .antigravityNamedHooks target template).1 template).1 =
      (merge .antigravityNamedHooks target template).1 := by
  cases template with
  | obj blocks =>
    cases target with
    | obj root =>
      refine congrArg Json.obj ?_
      have hstill : ∀ bs : Fields, (∀ e ∈ bs, e ∈ blocks) →
          bs.foldl mergeBlock (blocks.foldl mergeBlock root) = blocks.foldl mergeBlock root := by
        intro bs hbs
        induction bs with
        | nil => rfl
        | cons e bs ih =>
          have hnext := ih fun x hx => hbs x (List.mem_cons_of_mem e hx)
          have hsame : mergeBlock (blocks.foldl mergeBlock root) e =
              blocks.foldl mergeBlock root := by
            rw [mergeBlock]
            split_ifs with hmanaged
            · obtain ⟨block, hmem, -, hblock⟩ :=
                (fieldOf_mergeBlocks blocks root e.1).1 ⟨e, hbs e List.mem_cons_self, rfl, hmanaged⟩
              have hthis : some e.2 = some block :=
                (fieldOf_of_mem ht.1 (hbs e List.mem_cons_self)).symm.trans
                  (fieldOf_of_mem ht.1 hmem)
              rw [← hthis] at hblock
              exact alterField_same hblock rfl
            · rfl
          rw [List.foldl_cons, hsame, hnext]
      exact hstill blocks fun e he => he
    | _ => rfl
  | _ => rfl

end Documents

/-- Merging a template twice is merging it once. A second preview of an install, of the file that
the first one wrote, has an empty diff if the document is read as it was printed. -/
theorem merge_idempotent (format : ConfigFormat) (target template : Json)
    (ht : template.WellFormed) :
    (merge format (merge format target template).1 template).1 =
        (merge format target template).1 ∧
      ∀ (config : ManagerConfig) (call : Call) (adapter : AdapterDescriptor)
        (scope : ConnectorScope) (root : ScopeRoot) (disk : Disk)
        (preview : ConnectorPlanPreview) (plan : StoredPlan),
        adapter.format = format → config.loadTemplate adapter.source = .ok template →
        disk.files (root.resolve (adapter.targetFor scope)) =
          some (Utf8.encode (config.prettyJson (merge format target template).1)) →
        config.fromStr (config.prettyJson (merge format target template).1) =
          some (merge format target template).1 →
        config.planPreview call adapter scope .install root disk = .ok (preview, plan) →
          (∀ shown ∈ preview.files, shown.diffText = "") ∧
            ∀ file ∈ plan.files, file.mergedText = file.baselineText := by
  have htwice : (merge format (merge format target template).1 template).1 =
      (merge format target template).1 := by
    by_cases hf : format = .antigravityNamedHooks
    · subst hf
      exact mergeNamed_twice target ht
    · exact mergeHooks_twice hf target template
  refine ⟨htwice, ?_⟩
  intro config call adapter scope root disk preview plan hformat hload hfile hread hpreview
  have hplan := ManagerConfig.planPreview_plan hpreview
  obtain ⟨text, loaded, edited, file, -, hdecode, hloaded, hedit, hfiles, -, hmerged, hbaseline⟩ :=
    ManagerConfig.buildPreview_existing hfile hplan
  rw [Utf8.decode_encode] at hdecode
  cases hdecode
  obtain rfl := Except.ok.inj (hload.symm.trans hloaded)
  rw [hread, Option.getD_some, hformat] at hedit
  cases hedit
  have hsame : file.mergedText = file.baselineText := by
    rw [hmerged, hbaseline, htwice]
  obtain ⟨shown, file', hshown, hfile', -, hdiff⟩ := ManagerConfig.planPreview_shown hpreview
  obtain rfl := List.singleton_inj.1 (hfiles.symm.trans hfile')
  rw [hfiles, hshown]
  refine ⟨fun other hother => ?_, fun other hother => ?_⟩
  · obtain rfl := List.mem_singleton.1 hother
    rw [editDiff, Diff.unifiedDiff_eq_empty.2 hsame.symm] at hdiff
    exact hdiff.empty
  · obtain rfl := List.mem_singleton.1 hother
    exact hsame

/-- The text of the sample template merged into the file with a foreign hook. -/
def mergedText : String :=
  "\x7b\n  \"hooks\": \x7b\n    \"PreToolUse\": [\n      \x7b\n        \"command\": \"audit.sh\"\n" ++
    "      \x7d,\n      \x7b\n        \"command\": \"llm-notch-hook hook\"\n      \x7d\n    ]\n" ++
    "  \x7d,\n  \"version\": 1\n\x7d"

/-- The sample functions of other crates, on that text. -/
def mergedConfig : ManagerConfig :=
  { ManagerConfig.sampleConfig with
    loadTemplate := fun _ => .ok sampleTemplate
    fromStr := fun text =>
      if text = mergedText then some (merge .hooksJson foreignTarget sampleTemplate).1 else none
    prettyJson := fun _ => mergedText }

/-- The preview of an install into a file, from the outcome of its diff. -/
theorem install_ok {config : ManagerConfig} {adapter : AdapterDescriptor} {scope : ConnectorScope}
    {root : ScopeRoot} {disk : Disk} {text diffText : String} {template : Json}
    (hload : config.loadTemplate adapter.source = .ok template)
    (hfile : disk.files (root.resolve (adapter.targetFor scope)) = some (Utf8.encode text))
    (hdiff : diffOf (root.displayPath (adapter.targetFor scope)) text (config.prettyJson
      (merge adapter.format ((config.fromStr text).getD (.obj [])) template).1) = .ok diffText) :
    ∃ preview plan shown file,
      config.planPreview (ManagerConfig.sampleCall 'a' 0) adapter scope .install root disk =
        .ok (preview, plan) ∧
      preview.files = [shown] ∧ plan.files = [file] ∧ shown.diffText = diffText ∧
      file.mergedText = config.prettyJson
        (merge adapter.format ((config.fromStr text).getD (.obj [])) template).1 := by
  have hedit : Connector.buildPreview adapter.format .install
      ((config.fromStr text).getD (.obj [])) template =
        .ok (merge adapter.format ((config.fromStr text).getD (.obj [])) template) := rfl
  obtain ⟨preview, plan, hplan, shown, file, hshown, hplanned, htext, -, hmerged, -⟩ :=
    ManagerConfig.planPreview_ok (ManagerConfig.passes_sampleCall _ _) hload
      (ManagerConfig.readBaseline_existing hfile rfl (Utf8.decode_encode text)) hedit hdiff
  exact ⟨preview, plan, shown, file, hplan, hshown, hplanned, htext, hmerged⟩

/-- The file of the hooks of Cursor in the home directory. -/
theorem files_homeHooks (text : String) :
    (ManagerConfig.oneFile ManagerConfig.homeHooks (some (Utf8.encode text))).files
      (ManagerConfig.homeRoot.resolve (ManagerConfig.cursorAdapter.targetFor .user)) =
        some (Utf8.encode text) := by
  have hpath : ManagerConfig.homeRoot.resolve (ManagerConfig.cursorAdapter.targetFor .user) =
      ManagerConfig.homeHooks := by
    decide
  rw [hpath]
  simp only [ManagerConfig.oneFile, Function.update_self]

/-- Merging into a file with a foreign hook. -/
theorem merge_idempotent_foreign :
    (merge .hooksJson (merge .hooksJson foreignTarget sampleTemplate).1 sampleTemplate).1 =
        (merge .hooksJson foreignTarget sampleTemplate).1 ∧
      ∃ preview plan shown, mergedConfig.planPreview (ManagerConfig.sampleCall 'a' 0)
        ManagerConfig.cursorAdapter .user .install ManagerConfig.homeRoot
        (ManagerConfig.oneFile ManagerConfig.homeHooks (some (Utf8.encode mergedText))) =
          .ok (preview, plan) ∧ preview.files = [shown] ∧ shown.diffText = "" := by
  have ht : sampleTemplate.WellFormed := by
    simp [sampleTemplate, WellFormed, WellFormedFields, WellFormedItems, DistinctFields]
  obtain ⟨htwice, hpreview⟩ := merge_idempotent .hooksJson foreignTarget sampleTemplate ht
  have hread : mergedConfig.fromStr (mergedConfig.prettyJson
      (merge .hooksJson foreignTarget sampleTemplate).1) =
        some (merge .hooksJson foreignTarget sampleTemplate).1 := by
    simp only [mergedConfig, if_true]
  have hfile := files_homeHooks mergedText
  have hload : mergedConfig.loadTemplate ManagerConfig.cursorAdapter.source =
      .ok sampleTemplate := rfl
  obtain ⟨preview, plan, shown, file, hplan, hshown, -⟩ := install_ok hload hfile (if_pos rfl)
  refine ⟨htwice, preview, plan, shown, hplan, hshown, ?_⟩
  exact (hpreview mergedConfig (ManagerConfig.sampleCall 'a' 0) ManagerConfig.cursorAdapter .user
    ManagerConfig.homeRoot _ preview plan rfl rfl hfile hread hplan).1 shown
      (by rw [hshown]; exact List.mem_singleton.2 rfl)

/-! ## A number that is read as its neighbour -/

/-- The text of a file with the sample hooks and a number. -/
def numberText (digits : String) : String :=
  "\x7b\n  \"hooks\": \x7b\n    \"PreToolUse\": [\n      \x7b\n" ++
    "        \"command\": \"llm-notch-hook hook\"\n      \x7d\n    ]\n  \x7d,\n" ++
    "  \"version\": 1,\n  \"x\": " ++ digits ++ "\n\x7d"

def numberLines (digits : String) : List String :=
  ["\x7b", "  \"hooks\": \x7b", "    \"PreToolUse\": [", "      \x7b",
    "        \"command\": \"llm-notch-hook hook\"", "      \x7d", "    ]", "  \x7d,",
    "  \"version\": 1,", "  \"x\": " ++ digits, "\x7d"]

/-- The same file without the hooks, as its user wrote it. -/
def userText : String := "\x7b\"x\":6.970420678269283e-9\x7d"

/-- The functions of other crates on these texts. The first float is read from the text of the
second, and the second from the text of the first. -/
def numberConfig : ManagerConfig :=
  { ManagerConfig.sampleConfig with
    loadTemplate := fun _ => .ok sampleTemplate
    fromStr := fun text =>
      if text = userText then some (.obj [("x", .num "6.9704206782692835e-9")])
      else if text = numberText "6.9704206782692835e-9" then
        some (merge .hooksJson (.obj [("x", .num "6.970420678269283e-9")]) sampleTemplate).1
      else none
    prettyJson := fun value => match value.get "x" with
      | some (.num digits) => numberText digits
      | _ => "\x7b\x7d" }

theorem hunks_number : Diff.hunks (numberText "6.9704206782692835e-9")
      (numberText "6.970420678269283e-9") =
    [⟨10, 10, ["  \"x\": 6.9704206782692835e-9", "\x7d"],
      ["  \"x\": 6.970420678269283e-9", "\x7d"]⟩] := by
  have hold : Diff.lines (numberText "6.9704206782692835e-9") =
      numberLines "6.9704206782692835e-9" := by
    decide +kernel
  have hnew : Diff.lines (numberText "6.970420678269283e-9") =
      numberLines "6.970420678269283e-9" := by
    decide +kernel
  rw [Diff.hunks, hold, hnew]
  simp [numberLines, Diff.hunksFrom, Diff.collect]

theorem diffOf_number : ∃ diffText, diffText ≠ "" ∧
    diffOf (ManagerConfig.homeRoot.displayPath (ManagerConfig.cursorAdapter.targetFor .user))
      (numberText "6.9704206782692835e-9") (numberText "6.970420678269283e-9") =
        .ok diffText := by
  have hne : numberText "6.9704206782692835e-9" ≠ numberText "6.970420678269283e-9" := by
    decide +kernel
  refine ⟨editDiff "~/.cursor/hooks.json" (numberText "6.9704206782692835e-9")
    (numberText "6.970420678269283e-9"), fun hempty => hne (Diff.unifiedDiff_eq_empty.1 hempty), ?_⟩
  rw [ManagerConfig.displayPath_homeHooks, diffOf, if_neg hne, truncateDiff, if_neg]
  · rfl
  · rw [editDiff, Diff.unifiedDiff, if_neg hne, hunks_number]
    decide +kernel

/-- After an install into the file, the next preview of an install shows a change. -/
theorem second_install_differs : ∃ first second plan shown,
    numberConfig.buildPreview (ManagerConfig.sampleCall 'a' 0) ManagerConfig.cursorAdapter .user
      .install ManagerConfig.homeRoot
      (ManagerConfig.oneFile ManagerConfig.homeHooks (some (Utf8.encode userText))) = .ok first ∧
    first.files.map (·.mergedText) = [numberText "6.9704206782692835e-9"] ∧
    numberConfig.planPreview (ManagerConfig.sampleCall 'a' 0) ManagerConfig.cursorAdapter .user
      .install ManagerConfig.homeRoot (ManagerConfig.oneFile ManagerConfig.homeHooks
        (some (Utf8.encode (numberText "6.9704206782692835e-9")))) = .ok (second, plan) ∧
    second.files = [shown] ∧ shown.diffText ≠ "" := by
  have hload : numberConfig.loadTemplate ManagerConfig.cursorAdapter.source =
      .ok sampleTemplate := rfl
  have hclear : ManagerConfig.Unhindered (ManagerConfig.sampleCall 'a' 0) := ⟨rfl, rfl, rfl⟩
  have hedited : Connector.buildPreview ManagerConfig.cursorAdapter.format .install
      ((numberConfig.fromStr userText).getD (.obj [])) sampleTemplate =
        .ok (merge ManagerConfig.cursorAdapter.format
          ((numberConfig.fromStr userText).getD (.obj [])) sampleTemplate) := rfl
  obtain ⟨first, hfirst⟩ := ManagerConfig.buildPreview_ok (files_homeHooks userText) hclear
    (Utf8.decode_encode userText) hload hedited
  have hmerged : numberConfig.prettyJson (merge ManagerConfig.cursorAdapter.format
      ((numberConfig.fromStr (numberText "6.9704206782692835e-9")).getD (.obj []))
        sampleTemplate).1 = numberText "6.970420678269283e-9" := by
    decide +kernel
  obtain ⟨diffText, hsome, hdiff⟩ := diffOf_number
  obtain ⟨second, plan, shown, file, hplan, hshown, -, htext, -⟩ :=
    install_ok hload (files_homeHooks _) (hmerged ▸ hdiff)
  refine ⟨first, second, plan, shown, hfirst, ?_, hplan, hshown, ?_⟩
  · obtain ⟨text, loaded, edited, file, -, hdecode, hloaded, hedit, hfiles, -, hmerged, -⟩ :=
      ManagerConfig.buildPreview_existing (files_homeHooks userText) hfirst
    rw [Utf8.decode_encode] at hdecode
    cases hdecode
    obtain rfl := Except.ok.inj (hload.symm.trans hloaded)
    cases hedit
    rw [hfiles, List.map_singleton, hmerged]
    decide +kernel
  · rw [htext]
    exact hsome

end Connector

end LlmNotch
