import LlmNotch.ConnectorHooks

/-!
# What an edit keeps

An edit of named blocks replaces or drops whole blocks (`named_preserves_iff`). For all three
formats and operations, `edit_preserves_iff` says exactly when an edit keeps the foreign
parts of a document and, if it is a removal, leaves nothing managed.
-/

namespace LlmNotch

namespace Connector

open Json

/-! ## Named blocks -/

section Named

variable {target template after : Json} {name : String}

theorem asObject_of_managed {block : Json} (h : namedBlockHasManagedCommands block = true) :
    block.asObject ≠ none := by
  intro hnone
  simp [namedBlockHasManagedCommands, hnone] at h

/-- The blocks after those of a template are put in. -/
theorem fieldOf_mergeBlocks (blocks root : Fields) (name : String) :
    ((∃ e ∈ blocks, e.1 = name ∧ namedBlockHasManagedCommands e.2 = true) →
      ∃ block, (name, block) ∈ blocks ∧ namedBlockHasManagedCommands block = true ∧
        fieldOf name (blocks.foldl mergeBlock root) = some block) ∧
    ((¬ ∃ e ∈ blocks, e.1 = name ∧ namedBlockHasManagedCommands e.2 = true) →
      fieldOf name (blocks.foldl mergeBlock root) = fieldOf name root) := by
  induction blocks generalizing root with
  | nil => exact ⟨fun ⟨e, he, _⟩ => (by cases he), fun _ => rfl⟩
  | cons e rest ih =>
    obtain ⟨hin, hout⟩ := ih (mergeBlock root e)
    rw [List.foldl_cons]
    by_cases hrest : ∃ x ∈ rest, x.1 = name ∧ namedBlockHasManagedCommands x.2 = true
    · obtain ⟨block, hmem, hmanaged, hblock⟩ := hin hrest
      obtain ⟨x, hx, hname⟩ := hrest
      exact ⟨fun _ => ⟨block, List.mem_cons_of_mem e hmem, hmanaged, hblock⟩,
        fun hno => absurd ⟨x, List.mem_cons_of_mem e hx, hname⟩ hno⟩
    · rw [hout hrest]
      by_cases hhead : e.1 = name ∧ namedBlockHasManagedCommands e.2 = true
      · obtain ⟨rfl, hmanaged⟩ := hhead
        refine ⟨fun _ => ⟨e.2, by simp, hmanaged, ?_⟩,
          fun hno => absurd ⟨e, by simp, rfl, hmanaged⟩ hno⟩
        rw [mergeBlock, if_pos hmanaged, fieldOf_alterField, if_pos rfl]
      · refine ⟨fun ⟨x, hx, hname⟩ => ?_, fun _ => ?_⟩
        · rcases List.mem_cons.1 hx with rfl | hx
          · exact absurd hname hhead
          · exact absurd ⟨x, hx, hname⟩ hrest
        · unfold mergeBlock
          split
          · rename_i hmanaged
            rw [fieldOf_alterField, if_neg fun h => hhead ⟨h.symm, hmanaged⟩]
          · rfl

/-- If an edit keeps the other blocks and leaves nothing foreign in these, it preserves the
document exactly if there was nothing foreign in them. -/
theorem named_preserves_iff (lost : String → Prop)
    (hkept : ∀ name, ¬ lost name → after.get name = target.get name)
    (hlost : ∀ name, lost name → (∀ v, after.get name = some v → v.asObject ≠ none) ∧
      ∀ event, commandsIn foreign (slotOf after name event) = []) :
    Preserves .antigravityNamedHooks target after ↔
      ∀ name v, lost name → target.get name = some v → v.asObject ≠ none ∧
        ∀ event, event ≠ "enabled" → commandsIn foreign (v.get event) = [] := by
  have hslot : ∀ name v event, target.get name = some v →
      slotOf target name event = v.get event := fun name v event hv => by
    rw [slotOf, hv, Option.bind_some]
  constructor
  · intro h name v hname hv
    obtain ⟨hobj, hnone⟩ := hlost name hname
    refine ⟨fun hv' => hobj v (h.outside name v hv hv') hv', fun event hevent => ?_⟩
    have hsub := h.commands name event hevent
    rw [hnone event, hslot name v event hv] at hsub
    exact List.sublist_nil.1 hsub
  · intro h
    refine ⟨fun key v hv houtside => ?_, fun block event hevent => ?_⟩
    · by_cases hname : lost key
      · exact absurd houtside (h key v hname hv).1
      · rw [hkept key hname, hv]
    · by_cases hname : lost block
      · cases hv : target.get block with
        | none =>
          rw [slotOf, hv]
          exact List.nil_sublist _
        | some v =>
          rw [hslot block v event hv, (h block v hname hv).2 event hevent]
          exact List.nil_sublist _
      · rw [slotOf, slotOf, hkept block hname]

/-- The block is taken for one of the connector. -/
def Owned (target : Json) (name : String) : Prop :=
  ∃ block, target.get name = some block ∧ namedBlockHasManagedCommands block = true

theorem get_mergeNamed_of_not (h : ¬ Touched .antigravityNamedHooks template name) :
    (merge .antigravityNamedHooks target template).1.get name = target.get name := by
  simp only [merge, mergeAntigravityNamedHooks]
  split
  · rename_i blocks root
    exact (fieldOf_mergeBlocks blocks root name).2 h
  · rfl

theorem get_mergeNamed (ht : walkCommands foreign template = [])
    (h : Touched .antigravityNamedHooks template name) :
    (∀ v, (merge .antigravityNamedHooks target template).1.get name = some v →
      v.asObject ≠ none) ∧
    ∀ event, commandsIn foreign
      (slotOf (merge .antigravityNamedHooks target template).1 name event) = [] := by
  cases template with
  | obj blocks =>
    cases target with
    | obj root =>
      obtain ⟨block, hmem, hmanaged, hblock⟩ := (fieldOf_mergeBlocks blocks root name).1 h
      have hget : (merge .antigravityNamedHooks (.obj root) (.obj blocks)).1.get name =
          some block := hblock
      refine ⟨fun v hv => ?_, fun event => ?_⟩
      · rw [← Option.some.inj (hget.symm.trans hv)]
        exact asObject_of_managed hmanaged
      · rw [slotOf, hget, Option.bind_some]
        cases hevent : block.get event with
        | none => rfl
        | some v =>
          rw [commandsIn, Option.map_some, Option.getD_some]
          exact walk_get_eq_nil (walk_field_eq_nil ht hmem) hevent
    | _ => exact ⟨fun v hv => (by cases hv), fun event => rfl⟩
  | _ =>
    obtain ⟨e, he, -⟩ := h
    cases he

theorem get_removeNamed (hw : target.WellFormed) (name : String) :
    (removeManaged .antigravityNamedHooks target).1.get name =
      (target.get name).filter fun block => !namedBlockHasManagedCommands block := by
  cases target with
  | obj root => exact fieldOf_filter hw.1 _
  | _ => rfl

theorem get_removeNamed_of_not (hw : target.WellFormed) (h : ¬ Owned target name) :
    (removeManaged .antigravityNamedHooks target).1.get name = target.get name := by
  rw [get_removeNamed hw]
  cases hv : target.get name with
  | none => rfl
  | some block =>
    have hmanaged : namedBlockHasManagedCommands block = false :=
      Bool.eq_false_iff.2 fun hmanaged => h ⟨block, hv, hmanaged⟩
    simp [Option.filter, hmanaged]

theorem get_removeNamed_owned (hw : target.WellFormed) (h : Owned target name) :
    (removeManaged .antigravityNamedHooks target).1.get name = none := by
  obtain ⟨block, hv, hmanaged⟩ := h
  simp [get_removeNamed hw, hv, Option.filter, hmanaged]

theorem removeSafe_named_iff :
    RemoveSafe .antigravityNamedHooks target ↔
      ∀ name v, Owned target name → target.get name = some v → v.asObject ≠ none ∧
        ∀ event, event ≠ "enabled" → commandsIn foreign (v.get event) = [] := by
  constructor
  · rintro h name v ⟨block, hblock, hmanaged⟩ hv
    obtain rfl := Option.some.inj (hblock.symm.trans hv)
    exact ⟨asObject_of_managed hmanaged, h name block hblock hmanaged⟩
  · exact fun h name block hblock hmanaged => (h name block ⟨block, hblock, hmanaged⟩ hblock).2

theorem install_named_iff (ht : walkCommands foreign template = []) :
    Preserves .antigravityNamedHooks target (merge .antigravityNamedHooks target template).1 ↔
      MergeSafe .antigravityNamedHooks target template :=
  named_preserves_iff _ (fun _ h => get_mergeNamed_of_not h) fun _ h => get_mergeNamed ht h

theorem remove_named_iff (hw : target.WellFormed) :
    Preserves .antigravityNamedHooks target (removeManaged .antigravityNamedHooks target).1 ↔
      RemoveSafe .antigravityNamedHooks target := by
  rw [removeSafe_named_iff]
  refine named_preserves_iff _ (fun _ h => get_removeNamed_of_not hw h) fun name h => ?_
  have hnone := get_removeNamed_owned hw h
  exact ⟨fun v hv => (by rw [hnone] at hv; cases hv), fun event => by rw [slotOf, hnone]; rfl⟩

theorem repair_named_iff (hw : target.WellFormed) (ht : walkCommands foreign template = []) :
    Preserves .antigravityNamedHooks target
        (merge .antigravityNamedHooks (removeManaged .antigravityNamedHooks target).1 template).1 ↔
      RemoveSafe .antigravityNamedHooks target ∧
        MergeSafe .antigravityNamedHooks target template := by
  rw [removeSafe_named_iff]
  refine (named_preserves_iff (fun name => Owned target name ∨
    Touched .antigravityNamedHooks template name) (fun name h => ?_) fun name h => ?_).trans ?_
  · rw [get_mergeNamed_of_not fun hin => h (.inr hin),
      get_removeNamed_of_not hw fun hin => h (.inl hin)]
  · by_cases htouched : Touched .antigravityNamedHooks template name
    · exact get_mergeNamed ht htouched
    · have hnone := (get_mergeNamed_of_not htouched).trans
        (get_removeNamed_owned hw (h.resolve_right htouched))
      exact ⟨fun v hv => (by rw [hnone] at hv; cases hv), fun event => by rw [slotOf, hnone]; rfl⟩
  · exact ⟨fun h => ⟨fun name v ho => h name v (.inl ho), fun name v hin => h name v (.inr hin)⟩,
      fun h name v hlost => hlost.elim (h.1 name v) (h.2 name v)⟩

theorem remove_named_complete_iff (hw : target.WellFormed) :
    NoManaged .antigravityNamedHooks (removeManaged .antigravityNamedHooks target).1 ↔
      RemoveComplete .antigravityNamedHooks target := by
  constructor
  · intro h name block hblock hmanaged
    refine h name block ?_
    simp [get_removeNamed hw, hblock, Option.filter, hmanaged]
  · intro h name block hblock
    rw [get_removeNamed hw, Option.filter_eq_some_iff] at hblock
    exact h name block hblock.1 (by simpa using hblock.2)

end Named

/-! ## The edits -/

/-- An edit does what is asked of it exactly under the condition `KeepsForeign`. -/
theorem edit_preserves_iff {format : ConfigFormat} {operation : PlanOperation}
    {target template after : Json} {listed : List String} (hw : target.WellFormed)
    (ht : walkCommands foreign template = [])
    (h : buildPreview format operation target template = .ok (after, listed)) :
    EditsWell format operation target after ↔ KeepsForeign format target template operation := by
  cases operation with
  | rollback => cases h
  | install =>
    have hafter : after = (merge format target template).1 := by rw [Except.ok.inj h]
    have hpreserves : Preserves format target after ↔ MergeSafe format target template := by
      rw [hafter]
      by_cases hf : format = .antigravityNamedHooks
      · subst hf
        exact install_named_iff ht
      · exact install_preserves_iff hf ht
    exact ⟨fun hwell => hpreserves.1 hwell.1,
      fun hsafe => ⟨hpreserves.2 hsafe, fun hop => (by cases hop)⟩⟩
  | repair =>
    have hafter : after = (merge format (removeManaged format target).1 template).1 := by
      rw [Except.ok.inj h]
    have hpreserves : Preserves format target after ↔
        RemoveSafe format target ∧ MergeSafe format target template := by
      rw [hafter]
      by_cases hf : format = .antigravityNamedHooks
      · subst hf
        exact repair_named_iff hw ht
      · exact repair_preserves_iff hf hw ht
    exact ⟨fun hwell => hpreserves.1 hwell.1,
      fun hsafe => ⟨hpreserves.2 hsafe, fun hop => (by cases hop)⟩⟩
  | remove =>
    have hafter : after = (removeManaged format target).1 := by rw [Except.ok.inj h]
    have hpreserves : Preserves format target after ↔ RemoveSafe format target := by
      rw [hafter]
      by_cases hf : format = .antigravityNamedHooks
      · subst hf
        exact remove_named_iff hw
      · exact remove_preserves_iff hf hw
    have hcomplete : NoManaged format after ↔ RemoveComplete format target := by
      rw [hafter]
      by_cases hf : format = .antigravityNamedHooks
      · subst hf
        exact remove_named_complete_iff hw
      · exact remove_complete_iff hf hw
    exact and_congr hpreserves ⟨fun hwell => hcomplete.1 (hwell rfl), fun hc _ => hcomplete.2 hc⟩

/-- A template with one managed entry. -/
def sampleTemplate : Json :=
  .obj [("hooks", .obj [("PreToolUse", .arr [.obj [("command", .str "llm-notch-hook hook")]])]),
    ("version", .num "1")]

/-- A file with a foreign hook of its own. -/
def foreignTarget : Json :=
  .obj [("hooks", .obj [("PreToolUse", .arr [.obj [("command", .str "audit.sh")]])])]

/-- A file whose only entry has a managed and a foreign hook. -/
def mixedTarget : Json :=
  .obj [("hooks", .obj [("PreToolUse", .arr [.obj [("hooks", .arr
    [.obj [("command", .str "llm-notch-hook hook")], .obj [("command", .str "audit.sh")]])]])])]

theorem sampleTemplate_managed : walkCommands foreign sampleTemplate = [] := by
  decide

/-- Installing next to a foreign hook. -/
theorem edit_preserves_install : ∃ after listed,
    buildPreview .hooksJson .install foreignTarget sampleTemplate = .ok (after, listed) ∧
      EditsWell .hooksJson .install foreignTarget after := by
  refine ⟨_, _, rfl, ?_⟩
  have hw : foreignTarget.WellFormed := by
    simp [foreignTarget, WellFormed, WellFormedFields, WellFormedItems, DistinctFields]
  refine (edit_preserves_iff hw sampleTemplate_managed rfl).2 ?_
  intro event v _ hv harr
  rw [slotOf_hooks] at hv
  have hmem : (event, v) ∈ [("PreToolUse", Json.arr [.obj [("command", .str "audit.sh")]])] :=
    mem_of_fieldOf hv
  rw [List.mem_singleton] at hmem
  rw [(Prod.mk.inj hmem).2] at harr
  cases harr

/-- Removing takes out a foreign hook that shares an entry with a managed one. -/
theorem remove_drops_foreign : ∃ after listed, mixedTarget.WellFormed ∧
    walkCommands foreign sampleTemplate = [] ∧
    buildPreview .hooksJson .remove mixedTarget sampleTemplate = .ok (after, listed) ∧
    ¬ EditsWell .hooksJson .remove mixedTarget after := by
  refine ⟨_, _, ?_, sampleTemplate_managed, rfl, fun h => ?_⟩
  · simp [mixedTarget, WellFormed, WellFormedFields, WellFormedItems, DistinctFields]
  · have hsub := h.1.commands "hooks" "PreToolUse" rfl
    have hbefore : commandsIn foreign (slotOf mixedTarget "hooks" "PreToolUse") = ["audit.sh"] := by
      decide
    have hafter : commandsIn foreign (slotOf (removeManaged .hooksJson mixedTarget).1 "hooks"
        "PreToolUse") = [] := by
      decide
    rw [hbefore] at hsub
    exact absurd (hafter ▸ hsub : ["audit.sh"].Sublist []) (by decide)

end Connector

end LlmNotch
