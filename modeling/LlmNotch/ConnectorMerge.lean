import LlmNotch.JsonFields
import LlmNotch.RustText

/-!
# Editing the configuration of an agent

The connector adds its hooks to a configuration file and takes them out again. There are
three formats : a `hooks` object whose events list entries (`hooksJson`), a `hooks` object
whose events list groups of hooks with a matcher (`claudeSettings`), and named blocks whose
events list entries (`antigravityNamedHooks`). A command is managed if it names the hook
helper. Every edit also reports what it preserved or removed.
-/

namespace LlmNotch

namespace Connector

open Json

/-! ## Commands -/

def managedMarker : String := "llm-notch-hook"

def isManagedCommand (command : String) : Bool :=
  RustText.contains managedMarker.toList command.toList

/-- The command of a hook. -/
def hookCommand (hook : Json) : Option String :=
  hook.getStr "command"

/-- The command of an entry : its own, or the one of its first hook. -/
def entryCommand (entry : Json) : Option String :=
  (hookCommand entry).or (((entry.getArray "hooks").bind List.head?).bind hookCommand)

/-- The entry is taken for one of the connector. -/
def entryManaged (entry : Json) : Bool :=
  (entryCommand entry).any isManagedCommand

def hookManaged (hook : Json) : Bool :=
  (hookCommand hook).any isManagedCommand

mutual

/-- The commands of a document that satisfy `keep`, at any depth. -/
def walkCommands (keep : String → Bool) : Json → List String
  | .obj fields =>
    (((fieldOf "command" fields).bind asStr).filter keep).toList ++ walkFields keep fields
  | .arr items => walkItems keep items
  | _ => []

def walkItems (keep : String → Bool) : List Json → List String
  | [] => []
  | v :: rest => walkCommands keep v ++ walkItems keep rest

def walkFields (keep : String → Bool) : List (String × Json) → List String
  | [] => []
  | (_, v) :: rest => walkCommands keep v ++ walkFields keep rest

end

def collectManagedCommands (value : Json) : List String :=
  walkCommands isManagedCommand value

/-! ## The hooks object -/

/-- The object under `hooks`. -/
def hooksOf (value : Json) : Option Fields :=
  (value.get "hooks").bind asObject

/-- Edit the hooks of a document that has a hooks object. -/
def editHooks (edit : Fields → Fields) (target : Json) : Json :=
  match target with
  | .obj root =>
    match hooksOf target with
    | some hooks => .obj (modifyField "hooks" (fun _ => .obj (edit hooks)) root)
    | none => target
  | _ => target

/-- Add a hooks object if there is no field of that name. -/
def withHooks (target : Json) : Json :=
  match target with
  | .obj root => .obj (ensureField "hooks" (.obj []) root)
  | _ => target

/-- The entries of a slot; a slot that is no array is replaced by an empty one. -/
def slotEntries : Option Json → List Json
  | some (.arr entries) => entries
  | _ => []

/-- Change the entries of the slot of an event. -/
def alterSlot (event : String) (f : List Json → List Json) (hooks : Fields) : Fields :=
  alterField event (fun slot => .arr (f (slotEntries slot))) hooks

/-- Slots without entries are dropped. -/
def retainSlots (hooks : Fields) : Fields :=
  hooks.filter fun e => match e.2 with
    | .arr items => !items.isEmpty
    | _ => true

/-! ## Entries -/

/-- Add an entry unless one has its command. -/
def pushEntry (entries : List Json) (templateEntry : Json) : List Json :=
  match entryCommand templateEntry with
  | some command =>
    if entries.any fun e => entryCommand e = some command then entries
    else entries ++ [templateEntry]
  | none => entries

/-- Add the managed entries of a template event. -/
def mergeEvent (hooks : Fields) : String × Json → Fields
  | (event, .arr entries) =>
    let managed := entries.filter entryManaged
    if managed.isEmpty then hooks
    else alterSlot event (fun slot => managed.foldl pushEntry slot) hooks
  | _ => hooks

/-- The version of the template, if the document has none. -/
def addVersion (template merged : Json) : Json :=
  match template.get "version", merged with
  | some version, .obj root => .obj (ensureField "version" version root)
  | _, _ => merged

def collectForeignHooksJson (value : Json) : List String :=
  ((hooksOf value).getD []).flatMap fun e => (e.2.asArray.getD []).filterMap fun entry =>
    ((entryCommand entry).filter fun command => !isManagedCommand command).map fun command =>
      e.1 ++ ":" ++ command

def mergeHooksJson (target template : Json) : Json × List String :=
  let preserved := collectForeignHooksJson target
  match hooksOf template, hooksOf (withHooks target) with
  | some templateHooks, some _ =>
    (addVersion template (editHooks (templateHooks.foldl mergeEvent) (withHooks target)), preserved)
  | _, _ => (target, preserved)

/-- Keep the entries of an event that are not taken for the connector's. -/
def removeEntries : Json → Json
  | .arr entries => .arr (entries.filter fun entry => !entryManaged entry)
  | v => v

/-- The event once for every entry removed from it. -/
def removedEntries (hooks : Fields) : List String :=
  hooks.flatMap fun e => ((e.2.asArray.getD []).filter entryManaged).map fun _ => e.1

def removeHooksJson (target : Json) : Json × List String :=
  (editHooks (fun hooks => retainSlots (hooks.map fun e => (e.1, removeEntries e.2))) target,
    removedEntries ((hooksOf target).getD []))

/-! ## Groups -/

def matcherOf (group : Json) : String :=
  (group.getStr "matcher").getD ""

/-- Add a hook unless one has its command. -/
def pushHook (hooks : List Json) (hook : Json) : List Json :=
  if hooks.any fun h => hookCommand h = some ((hookCommand hook).getD "") then hooks
  else hooks ++ [hook]

/-- Add hooks to a group whose `hooks` is an array or missing. -/
def extendGroup (managed : List Json) : Json → Json
  | .obj fields =>
    let fields := ensureField "hooks" (.arr []) fields
    .obj (modifyField "hooks" (fun v => match v with
      | .arr hooks => .arr (managed.foldl pushHook hooks)
      | v => v) fields)
  | v => v

def newGroup (matcher : String) (managed : List Json) : Json :=
  .obj (("hooks", .arr managed) :: if matcher.isEmpty then [] else [("matcher", .str matcher)])

/-- Change the first element that satisfies `p`. -/
def modifyFirst {α : Type} (p : α → Bool) (f : α → α) : List α → Option (List α)
  | [] => none
  | x :: rest => if p x then some (f x :: rest) else (modifyFirst p f rest).map (x :: ·)

/-- Add the managed hooks of a template group to the first group with its matcher. -/
def mergeGroup (groups : List Json) (templateGroup : Json) : List Json :=
  let matcher := matcherOf templateGroup
  let managed := ((templateGroup.getArray "hooks").getD []).filter hookManaged
  if managed.isEmpty then groups
  else match modifyFirst (fun group => matcherOf group = matcher) (extendGroup managed) groups with
    | some groups => groups
    | none => groups ++ [newGroup matcher managed]

def mergeGroups (hooks : Fields) : String × Json → Fields
  | (event, .arr groups) => alterSlot event (fun slot => groups.foldl mergeGroup slot) hooks
  | _ => hooks

def collectForeignClaudeSettings (value : Json) : List String :=
  ((hooksOf value).getD []).flatMap fun e => (e.2.asArray.getD []).flatMap fun group =>
    ((group.getArray "hooks").getD []).filterMap fun hook =>
      ((hookCommand hook).filter fun command => !isManagedCommand command).map fun command =>
        e.1 ++ ":" ++ matcherOf group ++ ":" ++ command

def mergeClaudeSettings (target template : Json) : Json × List String :=
  let preserved := collectForeignClaudeSettings target
  match hooksOf template, hooksOf (withHooks target) with
  | some templateHooks, some _ =>
    (editHooks (templateHooks.foldl mergeGroups) (withHooks target), preserved)
  | _, _ => (target, preserved)

/-- Take the managed hooks out of a group. -/
def retainHooks : Json → Json
  | .obj fields => .obj (modifyField "hooks" (fun v => match v with
      | .arr hooks => .arr (hooks.filter fun hook => !hookManaged hook)
      | v => v) fields)
  | v => v

/-- Only groups with hooks stay. -/
def hasHooks (group : Json) : Bool :=
  (group.getArray "hooks").any fun hooks => !hooks.isEmpty

def removeGroups : Json → Json
  | .arr groups => .arr ((groups.map retainHooks).filter hasHooks)
  | v => v

/-- The event once for every hook removed from it. -/
def removedHooks (hooks : Fields) : List String :=
  hooks.flatMap fun e => (e.2.asArray.getD []).flatMap fun group =>
    (((group.getArray "hooks").getD []).filter hookManaged).map fun _ => e.1

def removeClaudeSettings (target : Json) : Json × List String :=
  (editHooks (fun hooks => retainSlots (hooks.map fun e => (e.1, removeGroups e.2))) target,
    removedHooks ((hooksOf target).getD []))

/-! ## Named blocks -/

def namedBlockHasManagedCommands (block : Json) : Bool :=
  (block.asObject.getD []).any fun e => e.1 ≠ "enabled" && (e.2.asArray.getD []).any fun entry =>
    entryManaged entry || ((entry.getArray "hooks").getD []).any hookManaged

def collectForeignAntigravityNamedHooks (value : Json) : List String :=
  ((value.asObject.getD []).filter fun e => !namedBlockHasManagedCommands e.2).map Prod.fst

/-- Put a managed block of the template into the document. -/
def mergeBlock (root : Fields) (e : String × Json) : Fields :=
  if namedBlockHasManagedCommands e.2 then alterField e.1 (fun _ => e.2) root else root

def mergeAntigravityNamedHooks (target template : Json) : Json × List String :=
  let preserved := collectForeignAntigravityNamedHooks target
  match template, target with
  | .obj templateBlocks, .obj root => (.obj (templateBlocks.foldl mergeBlock root), preserved)
  | _, _ => (target, preserved)

def removeAntigravityNamedHooks (target : Json) : Json × List String :=
  match target with
  | .obj root =>
    (.obj (root.filter fun e => !namedBlockHasManagedCommands e.2),
      (root.filter fun e => namedBlockHasManagedCommands e.2).map Prod.fst)
  | _ => (target, [])

/-! ## Plans -/

inductive ConfigFormat where
  | hooksJson | claudeSettings | antigravityNamedHooks
  deriving DecidableEq

inductive PlanOperation where
  | install | remove | repair | rollback
  deriving DecidableEq

def merge : ConfigFormat → Json → Json → Json × List String
  | .hooksJson => mergeHooksJson
  | .claudeSettings => mergeClaudeSettings
  | .antigravityNamedHooks => mergeAntigravityNamedHooks

def removeManaged : ConfigFormat → Json → Json × List String
  | .hooksJson => removeHooksJson
  | .claudeSettings => removeClaudeSettings
  | .antigravityNamedHooks => removeAntigravityNamedHooks

/-- The edited document and the entries the preview names; a rollback needs a journal entry
instead. -/
def buildPreview (format : ConfigFormat) (operation : PlanOperation) (baseline template : Json) :
    Except String (Json × List String) :=
  match operation with
  | .install => .ok (merge format baseline template)
  | .repair => .ok (merge format (removeManaged format baseline).1 template)
  | .remove => .ok (removeManaged format baseline)
  | .rollback => .error "rollback plans require a journal entry"

end Connector

end LlmNotch
