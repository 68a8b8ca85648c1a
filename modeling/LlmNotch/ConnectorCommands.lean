import LlmNotch.ConnectorMerge
import Mathlib.Data.List.Flatten

/-!
# The commands of a configuration

The commands of a document are all that the walk of the connector finds, at any depth. An
edit preserves a document (`Preserves`) if every key outside the hooks keeps its value and
the foreign commands of every slot are still there in their order. The edits decide about a
whole entry, group, block or slot by looking at a part of it; `KeepsForeign` is the condition
under which this does no harm.
-/

namespace LlmNotch

/-! ## Sublists -/

/-- If every part is shrunk, the whole is kept exactly if every part is. -/
theorem flatMap_sublist_iff {α β : Type*} {xs : List α} {f g : α → List β}
    (h : ∀ x ∈ xs, (g x).Sublist (f x)) :
    (xs.flatMap f).Sublist (xs.flatMap g) ↔ ∀ x ∈ xs, g x = f x := by
  constructor
  · intro hwhole
    have heq : xs.flatMap g = xs.flatMap f := (List.Sublist.flatMap_right xs h).antisymm hwhole
    induction xs with
    | nil => simp
    | cons x xs ih =>
      have hx := h x (by simp)
      have hrest := List.Sublist.flatMap_right xs fun y hy => h y (List.mem_cons_of_mem x hy)
      have hlen := congrArg List.length heq
      simp only [List.flatMap_cons, List.length_append] at hlen
      have hxlen := hx.length_le
      have hrestlen := hrest.length_le
      have hgx : g x = f x := hx.eq_of_length (by omega)
      have hgrest : xs.flatMap g = xs.flatMap f := hrest.eq_of_length (by omega)
      intro y hy
      rcases List.mem_cons.1 hy with rfl | hy
      · exact hgx
      · exact ih (fun z hz => h z (List.mem_cons_of_mem x hz)) (hgrest ▸ List.Sublist.refl _)
          hgrest y hy
  · intro hall
    rw [List.flatMap_congr fun x hx => (hall x hx).symm]

namespace Connector

open Json

/-! ## Walks -/

section Walk

variable {keep : String → Bool}

theorem walkItems_eq (items : List Json) :
    walkItems keep items = items.flatMap (walkCommands keep) := by
  induction items with
  | nil => rfl
  | cons v rest ih => rw [walkItems, ih, List.flatMap_cons]

theorem walkFields_eq (fields : Fields) :
    walkFields keep fields = fields.flatMap fun e => walkCommands keep e.2 := by
  induction fields with
  | nil => rfl
  | cons e rest ih =>
    obtain ⟨k, v⟩ := e
    rw [walkFields, ih, List.flatMap_cons]

theorem walkItems_append (xs ys : List Json) :
    walkItems keep (xs ++ ys) = walkItems keep xs ++ walkItems keep ys := by
  simp only [walkItems_eq, List.flatMap_append]

variable {items : List Json} {fields : Fields} {key : String} {v : Json}

theorem walkItems_eq_nil : walkItems keep items = [] ↔ ∀ v ∈ items, walkCommands keep v = [] := by
  rw [walkItems_eq, List.flatMap_eq_nil_iff]

/-- A document without commands has none in its parts. -/
theorem walk_field_eq_nil (h : walkCommands keep (.obj fields) = []) (hv : (key, v) ∈ fields) :
    walkCommands keep v = [] := by
  rw [walkCommands, List.append_eq_nil_iff, walkFields_eq, List.flatMap_eq_nil_iff] at h
  exact h.2 (key, v) hv

theorem walk_get_eq_nil {doc : Json} (h : walkCommands keep doc = []) (hv : doc.get key = some v) :
    walkCommands keep v = [] := by
  cases doc with
  | obj fields => exact walk_field_eq_nil h (mem_of_fieldOf hv)
  | _ => cases hv

theorem walk_item_eq_nil (h : walkCommands keep (.arr items) = []) (hv : v ∈ items) :
    walkCommands keep v = [] := by
  rw [walkCommands] at h
  exact walkItems_eq_nil.1 h v hv

theorem walk_getArray_eq_nil {doc : Json} (h : walkCommands keep doc = [])
    (hitems : doc.getArray key = some items) (hv : v ∈ items) : walkCommands keep v = [] := by
  obtain ⟨w, hw, harr⟩ := Option.bind_eq_some_iff.1 hitems
  cases w with
  | arr items' =>
    cases harr
    exact walk_item_eq_nil (walk_get_eq_nil h hw) hv
  | _ => cases harr

theorem walk_obj_eq_nil (hd : DistinctFields fields) :
    walkCommands keep (.obj fields) = [] ↔
      ((fieldOf "command" fields).bind asStr).any keep = false ∧
        ∀ key v, fieldOf key fields = some v → walkCommands keep v = [] := by
  rw [walkCommands, List.append_eq_nil_iff, walkFields_eq, List.flatMap_eq_nil_iff]
  refine and_congr ?_ ⟨fun h key v hv => h (key, v) (mem_of_fieldOf hv),
    fun h e he => h e.1 e.2 (fieldOf_of_mem hd he)⟩
  cases (fieldOf "command" fields).bind asStr with
  | none => simp
  | some command => cases h : keep command <;> simp [Option.filter, h]

theorem walkFields_insertField (h : walkCommands keep v = []) (fields : Fields) :
    walkFields keep (insertField key v fields) = walkFields keep fields := by
  induction fields with
  | nil => simp [insertField, walkFields, h]
  | cons e rest ih =>
    obtain ⟨k, w⟩ := e
    unfold insertField
    split
    · simp [walkFields, h]
    · rw [walkFields, ih, walkFields]

theorem walkFields_modifyField_sublist {f : Json → Json}
    (h : ∀ v, (walkCommands keep (f v)).Sublist (walkCommands keep v)) (fields : Fields) :
    (walkFields keep (modifyField key f fields)).Sublist (walkFields keep fields) := by
  induction fields with
  | nil => exact List.Sublist.refl _
  | cons e rest ih =>
    obtain ⟨k, v⟩ := e
    unfold modifyField
    split
    · exact (h v).append (List.Sublist.refl _)
    · exact (List.Sublist.refl _).append ih

/-- Shrinking one field keeps the commands of the object exactly if it keeps those of the
field. -/
theorem walkFields_modifyField_eq {f : Json → Json} (hv : fieldOf key fields = some v) :
    walkFields keep (modifyField key f fields) = walkFields keep fields ↔
      walkCommands keep (f v) = walkCommands keep v := by
  induction fields with
  | nil => cases hv
  | cons e rest ih =>
    obtain ⟨k, w⟩ := e
    unfold modifyField
    by_cases hk : k = key
    · have hw : w = v := by simpa [fieldOf, hk] using hv
      subst hw
      rw [if_pos hk, walkFields, walkFields, List.append_left_inj]
    · have hrest : fieldOf key rest = some v := by simpa [fieldOf, hk] using hv
      rw [if_neg hk, walkFields, walkFields, List.append_right_inj, ih hrest]

end Walk

/-! ## Slots -/

/-- The value at an event of a block : `hooks`, or a named block. -/
def slotOf (doc : Json) (block event : String) : Option Json :=
  (doc.get block).bind (·.get event)

def commandsIn (keep : String → Bool) (slot : Option Json) : List String :=
  (slot.map (walkCommands keep)).getD []

/-- The commands that are not managed. -/
def foreign : String → Bool := fun command => !isManagedCommand command

/-- Where hooks are. -/
def IsSlot : ConfigFormat → String → String → Prop
  | .antigravityNamedHooks, _, event => event ≠ "enabled"
  | _, block, _ => block = "hooks"

/-- A key outside the hooks; the objects of a file of named hooks are its blocks. -/
def Outside : ConfigFormat → String → Json → Prop
  | .antigravityNamedHooks, _, value => value.asObject = none
  | _, key, _ => key ≠ "hooks"

/-- The document keeps its foreign parts. -/
structure Preserves (format : ConfigFormat) (before after : Json) : Prop where
  outside : ∀ key value, before.get key = some value → Outside format key value →
    after.get key = some value
  commands : ∀ block event, IsSlot format block event →
    (commandsIn foreign (slotOf before block event)).Sublist
      (commandsIn foreign (slotOf after block event))

/-- No managed command is left in the hooks. -/
def NoManaged : ConfigFormat → Json → Prop
  | .antigravityNamedHooks, doc => ∀ name block, doc.get name = some block →
      walkCommands isManagedCommand block = []
  | _, doc => ∀ hooks, doc.get "hooks" = some hooks → walkCommands isManagedCommand hooks = []

/-- What is asked of an edit. -/
def EditsWell (format : ConfigFormat) (operation : PlanOperation) (before after : Json) : Prop :=
  Preserves format before after ∧ (operation = .remove → NoManaged format after)

/-! ## When an edit keeps what it should -/

/-- The fields of a template that the connector merges. -/
def templateFields : ConfigFormat → Json → Fields
  | .antigravityNamedHooks, template => template.asObject.getD []
  | _, template => (hooksOf template).getD []

/-- The template writes to the slot or block of this field. -/
def touches : ConfigFormat → String × Json → Bool
  | .hooksJson, (_, .arr entries) => entries.any entryManaged
  | .claudeSettings, (_, .arr _) => true
  | .antigravityNamedHooks, (_, block) => namedBlockHasManagedCommands block
  | _, _ => false

def Touched (format : ConfigFormat) (template : Json) (name : String) : Prop :=
  ∃ e ∈ templateFields format template, e.1 = name ∧ touches format e = true

/-- Nothing foreign stands where the template writes : no slot that is not an array, and no
named block. -/
def MergeSafe : ConfigFormat → Json → Json → Prop
  | .antigravityNamedHooks, target, template => ∀ name v,
      Touched .antigravityNamedHooks template name → target.get name = some v →
        v.asObject ≠ none ∧ ∀ event, event ≠ "enabled" → commandsIn foreign (v.get event) = []
  | format, target, template => ∀ event v, Touched format template event →
      slotOf target "hooks" event = some v → v.asArray = none → walkCommands foreign v = []

/-- A group of hooks that a removal takes out has no foreign command, and neither has a hook
that it takes out of another group. -/
def GroupSafe (group : Json) : Prop :=
  match group.getArray "hooks" with
  | some hooks =>
    if hooks.all hookManaged then walkCommands foreign group = []
    else ∀ hook ∈ hooks, hookManaged hook = true → walkCommands foreign hook = []
  | none => walkCommands foreign group = []

/-- Nothing foreign is taken out of a slot. -/
def SlotSafe : ConfigFormat → Json → Prop
  | .hooksJson, .arr entries =>
      ∀ entry ∈ entries, entryManaged entry = true → walkCommands foreign entry = []
  | .claudeSettings, .arr groups => ∀ group ∈ groups, GroupSafe group
  | _, _ => True

/-- Nothing foreign stands in what a removal takes out. -/
def RemoveSafe : ConfigFormat → Json → Prop
  | .antigravityNamedHooks, target => ∀ name block, target.get name = some block →
      namedBlockHasManagedCommands block = true →
        ∀ event, event ≠ "enabled" → commandsIn foreign (block.get event) = []
  | format, target => ∀ event v, slotOf target "hooks" event = some v → SlotSafe format v

/-- Nothing managed stands in a group outside the hooks a removal takes out, unless it takes
out the group. -/
def GroupClean (group : Json) : Prop :=
  ∀ hooks, group.getArray "hooks" = some hooks → hooks.all hookManaged = false →
    (∀ hook ∈ hooks, hookManaged hook = false → walkCommands isManagedCommand hook = []) ∧
    hookManaged group = false ∧
    ∀ key v, group.get key = some v → key ≠ "hooks" → walkCommands isManagedCommand v = []

/-- Nothing managed stays in a slot. -/
def SlotClean : ConfigFormat → Json → Prop
  | .hooksJson, .arr entries =>
      ∀ entry ∈ entries, entryManaged entry = false → walkCommands isManagedCommand entry = []
  | .claudeSettings, .arr groups => ∀ group ∈ groups, GroupClean group
  | _, v => walkCommands isManagedCommand v = []

/-- Nothing managed stands outside what a removal takes out. -/
def RemoveComplete : ConfigFormat → Json → Prop
  | .antigravityNamedHooks, target => ∀ name block, target.get name = some block →
      namedBlockHasManagedCommands block = false → walkCommands isManagedCommand block = []
  | format, target => ∀ hooks, target.get "hooks" = some hooks →
      (hooks.asObject = none → walkCommands isManagedCommand hooks = []) ∧
      hookManaged hooks = false ∧ ∀ event v, hooks.get event = some v → SlotClean format v

/-- The condition under which an edit does what is asked of it. -/
def KeepsForeign (format : ConfigFormat) (target template : Json) : PlanOperation → Prop
  | .install => MergeSafe format target template
  | .remove => RemoveSafe format target ∧ RemoveComplete format target
  | .repair => RemoveSafe format target ∧ MergeSafe format target template
  | .rollback => True

end Connector

end LlmNotch
