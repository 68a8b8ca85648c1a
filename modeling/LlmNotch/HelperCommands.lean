import LlmNotch.ConnectorCommands
import LlmNotch.FilePaths
import LlmNotch.TextSearch
import LlmNotch.Utf8

/-!
# The helper in a hook command

A template names the hook helper by a placeholder. Before it is merged its texts are rewritten
with the path of the helper (`materializeTemplate`), and the health check reads the path back
from an installed command (`extractInvocationPathFromCommand`). A path with a space is quoted
when it is put in, but the shipped templates have the placeholder inside quotes already, and
between two quotes the check finds an empty path. `commands_run_helper` : the commands of a
shipped template lead back to the path of the helper exactly if it is text without a space
and without a placeholder.
-/

namespace LlmNotch

namespace Connector

open Json Files

/-! ## Rewriting -/

def helperPlaceholder : String := "\x7b\x7bLLM_NOTCH_HELPER\x7d\x7d"

def wrapperPlaceholder : String := "\x7b\x7bLLM_NOTCH_WRAPPER\x7d\x7d"

def wrapperAbsolutePlaceholder : String := "\x7b\x7bLLM_NOTCH_WRAPPER_ABSOLUTE_PATH\x7d\x7d"

def placeholders : List String :=
  [helperPlaceholder, wrapperPlaceholder, wrapperAbsolutePlaceholder]

/-- Whether a command still names one of the placeholders. -/
def hasPlaceholder (command : List Char) : Bool :=
  placeholders.any fun placeholder => RustText.contains placeholder.toList command

/-- A path with a space is quoted. -/
def quotedHelper (helper : List Char) : List Char :=
  if ' ' ∈ helper then '"' :: helper ++ ['"'] else helper

/-- A leading `sh` is dropped. -/
def stripWindowsShPrefix (command : List Char) : List Char :=
  match RustText.stripPre "sh ".toList (RustText.trimStart command) with
  | some rest => RustText.trimStart rest
  | none => command

/-- The arguments of a command from `--source` on, behind the helper. -/
def hookArguments (helper command : List Char) : Option (List Char) :=
  (RustText.find "--source".toList command).map fun found =>
    quotedHelper helper ++ " hook ".toList ++ RustText.trim found.2

def materializeWrapperCommand (platform : Platform) (helper command : List Char) : List Char :=
  let materialized := RustText.replace wrapperPlaceholder.toList (quotedHelper helper)
    (RustText.replace wrapperAbsolutePlaceholder.toList (quotedHelper helper) command)
  let materialized := match platform with
    | .windows => stripWindowsShPrefix materialized
    | .unix => materialized
  if RustText.contains " hook ".toList materialized then materialized
  else (hookArguments helper materialized).getD materialized

def rewriteCommand (platform : Platform) (helper command : List Char) : List Char :=
  if RustText.contains helperPlaceholder.toList command then
    RustText.replace helperPlaceholder.toList (quotedHelper helper) command
  else if RustText.contains wrapperPlaceholder.toList command then
    materializeWrapperCommand platform helper command
  else if RustText.contains wrapperAbsolutePlaceholder.toList command then
    materializeWrapperCommand platform helper command
  else match hookArguments helper command with
    | some command => command
    | none =>
      if RustText.contains "llm-notch-hook-wrapper".toList command then quotedHelper helper
      else helper

/-- A text that names the helper or a placeholder is rewritten. -/
def rewriteText (platform : Platform) (helper : List Char) (text : String) : String :=
  if isManagedCommand text || hasPlaceholder text.toList then
    String.ofList (rewriteCommand platform helper text.toList)
  else text

mutual

/-- Rewrite the texts of a document, at any depth. -/
def rewriteCommands (platform : Platform) (helper : List Char) : Json → Json
  | .obj fields => .obj (rewriteFields platform helper fields)
  | .arr items => .arr (rewriteItems platform helper items)
  | .str text => .str (rewriteText platform helper text)
  | v => v

def rewriteItems (platform : Platform) (helper : List Char) : List Json → List Json
  | [] => []
  | v :: rest => rewriteCommands platform helper v :: rewriteItems platform helper rest

def rewriteFields (platform : Platform) (helper : List Char) :
    List (String × Json) → List (String × Json)
  | [] => []
  | (k, v) :: rest => (k, rewriteCommands platform helper v) :: rewriteFields platform helper rest

end

/-- The template with the path of the helper, given by its bytes. -/
def materializeTemplate (platform : Platform) (template : Json) (helperPath : List UInt8) : Json :=
  rewriteCommands platform (Utf8.lossy helperPath).toList template

/-! ## Extraction -/

/-- The characters of the name of an environment variable. -/
def isEnvName (c : Char) : Bool :=
  (65 ≤ c.toNat && c.toNat ≤ 90) || c = '_'

/-- Drop assignments of at most one digit, at most `fuel` of them. -/
def stripEnvFrom : ℕ → List Char → List Char
  | 0, rest => rest
  | fuel + 1, rest =>
    let name := rest.takeWhile (· ≠ '=')
    match rest.drop name.length with
    | [] => rest
    | _ :: after =>
      if name = [] || !name.all isEnvName then rest
      else
        let after := RustText.trimStart after
        match after with
        | [] => []
        | c :: stripped =>
          if RustText.isAsciiDigit c then stripEnvFrom fuel (RustText.trimStart stripped)
          else stripEnvFrom fuel after

/-- Drop the assignments before a command; each has at least one character. -/
def stripEnvPrefix (command : List Char) : List Char :=
  let rest := RustText.trim command
  stripEnvFrom rest.length rest

def unquoteToken (token : List Char) : List Char :=
  ((RustText.stripPre ['"'] token).bind (RustText.stripSuf ['"'])).getD token

def extractExecutableToken (command : List Char) : Option (List Char) :=
  match RustText.trim command with
  | [] => none
  | '"' :: rest => if '"' ∈ rest then some (rest.takeWhile (· ≠ '"')) else none
  | command =>
    let lower := command.map RustText.toAsciiLowercase
    if ["sh ", "pwsh ", "powershell "].any fun shell => shell.toList.isPrefixOf lower then
      (RustText.splitWhitespace command)[1]?.map unquoteToken
    else match RustText.find " hook ".toList command with
      | some (before, _) => some (unquoteToken (RustText.trim before))
      | none => (RustText.splitWhitespace command).head?.map unquoteToken

/-- `Path::is_absolute`. -/
def isAbsolute (platform : Platform) (text : String) : Bool :=
  let path := Path.parse platform text
  match platform with
  | .unix => path.rooted
  | .windows => path.rooted && path.volume.isSome

def looksLikePath (platform : Platform) (value : List Char) : Bool :=
  '/' ∈ value || '\\' ∈ value || ".exe".toList.isSuffixOf value ||
    isAbsolute platform (String.ofList value) ||
    RustText.contains "llm-notch-hook-wrapper".toList value

/-- The bytes of an executable given by its path; the bare name of the helper is none. -/
def executablePath (platform : Platform) (executable : List Char) : Option (List UInt8) :=
  if executable = "llm-notch-hook".toList ∨ executable = "llm-notch-hook.exe".toList then none
  else if looksLikePath platform executable then some (Utf8.encode (String.ofList executable))
  else none

/-- The bytes of the path a command runs. -/
def extractInvocationPathFromCommand (platform : Platform) (command : String) :
    Option (List UInt8) :=
  let command := stripEnvPrefix (RustText.trim command.toList)
  if hasPlaceholder command then none
  else (extractExecutableToken command).bind fun executable =>
    executablePath platform (unquoteToken executable)

/-! ## The shipped templates -/

/-- The command of a template that reports an event, with the flags behind it. -/
def helperCommand (source event flags : String) : String :=
  "\"" ++ helperPlaceholder ++ "\" hook --source " ++ source ++ " --vendor-event " ++ event ++ flags

def hookMode : String := " --hook-mode"

/-- A template of hooks, with the slot of every event. -/
def hooksTemplate (version : Option String) (slots : Fields) : Json :=
  .obj (("hooks", .obj slots) :: (version.map fun v => ("version", Json.num v)).toList)

/-- A group of one hook, behind a matcher if there is one. -/
def matcherGroup (matcher : Option String) (hook : Fields) : Json :=
  .arr [.obj (("hooks", .arr [.obj hook]) ::
    (matcher.map fun m => ("matcher", Json.str m)).toList)]

def cursorTemplate : Json :=
  hooksTemplate (some "1")
    (["postToolUse", "postToolUseFailure", "preToolUse", "sessionEnd", "sessionStart",
      "stop"].map fun event => (event, .arr [.obj
        [("command", .str (helperCommand "cursor" event hookMode)), ("timeout", .num "2")]]))

def claudeCodeTemplate : Json :=
  hooksTemplate none
    ([("PermissionRequest", some ".*", "120"), ("PostToolUse", some ".*", "2"),
      ("PostToolUseFailure", some ".*", "2"), ("PreToolUse", some ".*", "2"),
      ("SessionEnd", none, "2"), ("SessionStart", some "startup|resume", "2"),
      ("Stop", none, "2")].map fun (event, matcher, timeout) => (event, matcherGroup matcher
        [("command", .str (helperCommand "claudeCode" event hookMode)), ("timeout", .num timeout),
          ("type", .str "command")]))

def codexTemplate : Json :=
  hooksTemplate none
    ([("PermissionRequest", some ".*", some "llm_notch: permission observe", "120"),
      ("PostToolUse", some ".*", none, "2"),
      ("PreToolUse", some ".*", some "llm_notch: tool observe", "2"),
      ("SessionStart", some "startup|resume", some "llm_notch: session observe", "2"),
      ("Stop", none, some "llm_notch: turn observe", "2"),
      ("UserPromptSubmit", none, none, "2")].map fun (event, matcher, message, timeout) =>
        (event, matcherGroup matcher
          (("command", .str (helperCommand "codex" event "")) ::
            ((message.map fun m => ("statusMessage", Json.str m)).toList ++
              [("timeout", .num timeout), ("type", .str "command")]))))

/-- The hooks of gemini and qwen have a name. -/
def namedHook (source event name timeout : String) : Fields :=
  [("command", .str (helperCommand source event hookMode)), ("name", .str name),
    ("timeout", .num timeout), ("type", .str "command")]

def geminiTemplate : Json :=
  hooksTemplate none
    ([("AfterTool", some ".*", "llm-notch-after-tool"),
      ("BeforeTool", some ".*", "llm-notch-before-tool"),
      ("Notification", none, "llm-notch-notification"),
      ("SessionEnd", none, "llm-notch-session-end"),
      ("SessionStart", none, "llm-notch-session-start")].map fun (event, matcher, name) =>
        (event, matcherGroup matcher (namedHook "gemini" event name "2000")))

def qwenTemplate : Json :=
  hooksTemplate none
    ([("PermissionRequest", some ".*", "llm-notch-permission-request", "120000"),
      ("PostToolUse", some ".*", "llm-notch-post-tool-use", "2000"),
      ("PreToolUse", some ".*", "llm-notch-pre-tool-use", "2000"),
      ("SessionEnd", none, "llm-notch-session-end", "2000"),
      ("SessionStart", some "startup|resume", "llm-notch-session-start", "2000"),
      ("Stop", none, "llm-notch-stop", "2000")].map fun (event, matcher, name, timeout) =>
        (event, matcherGroup matcher (namedHook "qwen" event name timeout)))

def antigravityCliTemplate : Json :=
  .obj [("llm-notch", .obj
    ([("PostToolUse", some ".*", "llm-notch-post-tool-use"),
      ("PreToolUse", some "run_command", "llm-notch-pre-tool-use"),
      ("Stop", none, "llm-notch-stop")].map (fun (event, matcher, name) =>
        (event, matcherGroup matcher (namedHook "antigravityCli" event name "30"))) ++
      [("enabled", .bool true)]))]

def copilotCliTemplate : Json :=
  hooksTemplate (some "1")
    (["agentStop", "permissionRequest", "postToolUse", "preToolUse", "sessionEnd",
      "sessionStart"].map fun event => (event, .arr [.obj
        [("command", .str (helperCommand "copilotCli" event hookMode)), ("timeoutSec", .num "5"),
          ("type", .str "command")]]))

/-- The assignment before the commands of a remote host. -/
def spoolAssignment : String := "LLM_NOTCH_EVENT_SPOOL=1 "

def remoteCursorTemplate : Json :=
  hooksTemplate (some "1")
    (["postToolUse", "postToolUseFailure", "preToolUse", "sessionEnd", "sessionStart",
      "stop"].map fun event => (event, .arr [.obj
        [("command", .str (spoolAssignment ++ helperCommand "cursor" event hookMode)),
          ("timeout", .num "2")]]))

/-- The templates, without the comments that are dropped on loading. -/
def shippedTemplates : List Json :=
  [cursorTemplate, claudeCodeTemplate, codexTemplate, geminiTemplate, qwenTemplate,
    antigravityCliTemplate, copilotCliTemplate, remoteCursorTemplate]

/-- All commands of a document. -/
def allCommands (value : Json) : List String :=
  walkCommands (fun _ => true) value

/-! ## Rewriting keeps the shape of a document -/

section Rewrite

variable {platform : Platform} {helper : List Char}

theorem asStr_rewriteCommands (v : Json) :
    (rewriteCommands platform helper v).asStr = v.asStr.map (rewriteText platform helper) := by
  cases v <;> simp [rewriteCommands, asStr]

theorem fieldOf_rewriteFields (key : String) (fields : Fields) :
    fieldOf key (rewriteFields platform helper fields) =
      (fieldOf key fields).map (rewriteCommands platform helper) := by
  induction fields with
  | nil => rfl
  | cons e rest ih =>
    obtain ⟨k, v⟩ := e
    by_cases hk : k = key
    · simp [rewriteFields, fieldOf, hk]
    · simpa [rewriteFields, fieldOf, hk] using ih

mutual

/-- The commands of a rewritten document are its commands, rewritten. -/
theorem allCommands_rewriteCommands : ∀ v : Json,
    walkCommands (fun _ => true) (rewriteCommands platform helper v) =
      (walkCommands (fun _ => true) v).map (rewriteText platform helper)
  | .obj fields => by
    have hself : ((fieldOf "command" (rewriteFields platform helper fields)).bind asStr) =
        ((fieldOf "command" fields).bind asStr).map (rewriteText platform helper) := by
      rw [fieldOf_rewriteFields]
      cases fieldOf "command" fields with
      | none => rfl
      | some v => exact asStr_rewriteCommands v
    have hfields := allFields_rewriteFields fields
    rw [rewriteCommands, walkCommands, walkCommands, hfields, hself, List.map_append]
    cases (fieldOf "command" fields).bind asStr <;> rfl
  | .arr items => by
    have hitems := allItems_rewriteItems items
    rw [rewriteCommands, walkCommands, walkCommands, hitems]
  | .null | .bool _ | .num _ | .str _ => by simp [rewriteCommands, walkCommands]

theorem allItems_rewriteItems : ∀ items : List Json,
    walkItems (fun _ => true) (rewriteItems platform helper items) =
      (walkItems (fun _ => true) items).map (rewriteText platform helper)
  | [] => rfl
  | v :: rest => by
    rw [rewriteItems, walkItems, walkItems, allCommands_rewriteCommands v,
      allItems_rewriteItems rest, List.map_append]

theorem allFields_rewriteFields : ∀ fields : Fields,
    walkFields (fun _ => true) (rewriteFields platform helper fields) =
      (walkFields (fun _ => true) fields).map (rewriteText platform helper)
  | [] => rfl
  | (k, v) :: rest => by
    rw [rewriteFields, walkFields, walkFields, allCommands_rewriteCommands v,
      allFields_rewriteFields rest, List.map_append]

end

end Rewrite

/-! ## Commands with a quoted placeholder -/

/-- The placeholder in quotes, behind an assignment if there is one, before arguments that
have no brace. -/
def QuotesHelper (command : String) : Prop :=
  ∃ before after : List Char, (before = [] ∨ before = spoolAssignment.toList) ∧
    '\x7b' ∉ after ∧
    command.toList = before ++ '"' :: (helperPlaceholder.toList ++ '"' :: after)

theorem toList_helperCommand (source event flags : String) :
    (helperCommand source event flags).toList =
      '"' :: (helperPlaceholder.toList ++ '"' :: (" hook --source ".toList ++ source.toList ++
        " --vendor-event ".toList ++ event.toList ++ flags.toList)) := by
  simp [helperCommand]

theorem quotesHelper_helperCommand {source event flags : String}
    (hargs : '\x7b' ∉ source.toList ++ event.toList ++ flags.toList) :
    QuotesHelper (helperCommand source event flags) ∧
      QuotesHelper (spoolAssignment ++ helperCommand source event flags) := by
  have hafter : '\x7b' ∉ " hook --source ".toList ++ source.toList ++ " --vendor-event ".toList ++
      event.toList ++ flags.toList := by
    simp only [List.mem_append, not_or] at hargs ⊢
    exact ⟨⟨⟨⟨by decide, hargs.1.1⟩, by decide⟩, hargs.1.2⟩, hargs.2⟩
  constructor
  · exact ⟨[], _, .inl rfl, hafter, toList_helperCommand source event flags⟩
  · refine ⟨spoolAssignment.toList, _, .inr rfl, hafter, ?_⟩
    rw [String.toList_append, toList_helperCommand]

theorem no_brace {cs : List Char} (h : cs.all (· ≠ '\x7b') = true) :
    '\x7b' ∉ (String.ofList cs).toList := by
  rw [String.toList_ofList]
  intro hmem
  simpa using List.all_eq_true.1 h _ hmem

theorem walk_matcherGroup (matcher : Option String) (hook : Fields) :
    walkCommands (fun _ => true) (matcherGroup matcher hook) =
      walkCommands (fun _ => true) (.obj hook) := by
  cases matcher <;> simp [matcherGroup, walkCommands, walkItems, walkFields, fieldOf]

theorem walk_hooksTemplate (version : Option String) (slots : Fields) :
    walkCommands (fun _ => true) (hooksTemplate version slots) =
      walkCommands (fun _ => true) (.obj slots) := by
  cases version <;> simp [hooksTemplate, walkCommands, walkFields, fieldOf]

theorem walk_namedHook (source event name timeout : String) :
    walkCommands (fun _ => true) (.obj (namedHook source event name timeout)) =
      [helperCommand source event hookMode] := by
  simp [namedHook, walkCommands, walkFields, fieldOf, asStr, Option.filter]

/-- The slots of a template have the commands of their hooks. -/
theorem walk_slots {α : Type} (events : List α) (slot : α → String × Json)
    (hslot : ∀ event ∈ events, (slot event).2.asStr = none) :
    walkCommands (fun _ => true) (.obj (events.map slot)) =
      events.flatMap fun event => walkCommands (fun _ => true) (slot event).2 := by
  have hnone : (fieldOf "command" (events.map slot)).bind asStr = none := by
    cases h : fieldOf "command" (events.map slot) with
    | none => rfl
    | some v =>
      obtain ⟨event, hevent, heq⟩ := List.mem_map.1 (mem_of_fieldOf h)
      have hv := hslot event hevent
      rw [heq] at hv
      exact hv
  rw [walkCommands, hnone, walkFields_eq, List.flatMap_map]
  rfl

/-- The commands of the shipped templates. -/
theorem allCommands_shipped {template : Json} (h : template ∈ shippedTemplates) :
    ∃ prelude source flags, ∃ events : List String, events ≠ [] ∧
      (prelude = "" ∨ prelude = spoolAssignment) ∧
      (∀ text ∈ source :: flags :: events, '\x7b' ∉ text.toList) ∧
      allCommands template =
        events.map fun event => prelude ++ helperCommand source event flags := by
  simp only [shippedTemplates, List.mem_cons, List.not_mem_nil, or_false] at h
  rcases h with rfl | rfl | rfl | rfl | rfl | rfl | rfl | rfl
  · refine ⟨"", "cursor", hookMode, ["postToolUse", "postToolUseFailure", "preToolUse",
      "sessionEnd", "sessionStart", "stop"], by simp, .inl rfl, ?_, ?_⟩
    · simp only [List.forall_mem_cons]
      and_intros <;> first | exact no_brace rfl | simp
    · rw [allCommands, cursorTemplate, walk_hooksTemplate, walk_slots _ _ (by simp [asStr])]
      simp [walkCommands, walkItems, walkFields, fieldOf, asStr, Option.filter]
  · refine ⟨"", "claudeCode", hookMode, ["PermissionRequest", "PostToolUse", "PostToolUseFailure",
      "PreToolUse", "SessionEnd", "SessionStart", "Stop"], by simp, .inl rfl, ?_, ?_⟩
    · simp only [List.forall_mem_cons]
      and_intros <;> first | exact no_brace rfl | simp
    · rw [allCommands, claudeCodeTemplate, walk_hooksTemplate,
        walk_slots _ _ (by simp [matcherGroup, asStr])]
      simp [walk_matcherGroup, walkCommands, walkFields, fieldOf, asStr, Option.filter]
  · refine ⟨"", "codex", "", ["PermissionRequest", "PostToolUse", "PreToolUse", "SessionStart",
      "Stop", "UserPromptSubmit"], by simp, .inl rfl, ?_, ?_⟩
    · simp only [List.forall_mem_cons]
      and_intros <;> first | exact no_brace rfl | simp
    · rw [allCommands, codexTemplate, walk_hooksTemplate,
        walk_slots _ _ (by simp [matcherGroup, asStr])]
      simp [walk_matcherGroup, walkCommands, walkFields, fieldOf, asStr, Option.filter]
  · refine ⟨"", "gemini", hookMode, ["AfterTool", "BeforeTool", "Notification", "SessionEnd",
      "SessionStart"], by simp, .inl rfl, ?_, ?_⟩
    · simp only [List.forall_mem_cons]
      and_intros <;> first | exact no_brace rfl | simp
    · rw [allCommands, geminiTemplate, walk_hooksTemplate,
        walk_slots _ _ (by simp [matcherGroup, asStr])]
      simp [walk_matcherGroup, walk_namedHook]
  · refine ⟨"", "qwen", hookMode, ["PermissionRequest", "PostToolUse", "PreToolUse", "SessionEnd",
      "SessionStart", "Stop"], by simp, .inl rfl, ?_, ?_⟩
    · simp only [List.forall_mem_cons]
      and_intros <;> first | exact no_brace rfl | simp
    · rw [allCommands, qwenTemplate, walk_hooksTemplate,
        walk_slots _ _ (by simp [matcherGroup, asStr])]
      simp [walk_matcherGroup, walk_namedHook]
  · refine ⟨"", "antigravityCli", hookMode, ["PostToolUse", "PreToolUse", "Stop"], by simp, .inl
      rfl, ?_, ?_⟩
    · simp only [List.forall_mem_cons]
      and_intros <;> first | exact no_brace rfl | simp
    · simp [allCommands, antigravityCliTemplate, matcherGroup, namedHook, walkCommands, walkFields,
        walkItems, fieldOf, asStr, Option.filter]
  · refine ⟨"", "copilotCli", hookMode, ["agentStop", "permissionRequest", "postToolUse",
      "preToolUse", "sessionEnd", "sessionStart"], by simp, .inl rfl, ?_, ?_⟩
    · simp only [List.forall_mem_cons]
      and_intros <;> first | exact no_brace rfl | simp
    · rw [allCommands, copilotCliTemplate, walk_hooksTemplate, walk_slots _ _ (by simp [asStr])]
      simp [walkCommands, walkItems, walkFields, fieldOf, asStr, Option.filter]
  · refine ⟨spoolAssignment, "cursor", hookMode, ["postToolUse", "postToolUseFailure",
      "preToolUse", "sessionEnd", "sessionStart", "stop"], by simp, .inr rfl, ?_, ?_⟩
    · simp only [List.forall_mem_cons]
      and_intros <;> first | exact no_brace rfl | simp
    · rw [allCommands, remoteCursorTemplate, walk_hooksTemplate, walk_slots _ _ (by simp [asStr])]
      simp [walkCommands, walkItems, walkFields, fieldOf, asStr, Option.filter]

theorem shipped_quotesHelper {template : Json} (h : template ∈ shippedTemplates) :
    (∀ command ∈ allCommands template, QuotesHelper command) ∧ allCommands template ≠ [] := by
  obtain ⟨prelude, source, flags, events, hne, hprelude, hplain, heq⟩ := allCommands_shipped h
  rw [heq]
  refine ⟨fun command hcommand => ?_, by simpa using hne⟩
  obtain ⟨event, hevent, rfl⟩ := List.mem_map.1 hcommand
  have hargs : '\x7b' ∉ source.toList ++ event.toList ++ flags.toList := by
    simp only [List.mem_append, not_or]
    exact ⟨⟨hplain source (by simp), hplain event (by simp [hevent])⟩, hplain flags (by simp)⟩
  rcases hprelude with rfl | rfl
  · rw [String.empty_append]
    exact (quotesHelper_helperCommand hargs).1
  · exact (quotesHelper_helperCommand hargs).2

theorem toList_helperPlaceholder : ∃ rest, helperPlaceholder.toList = '\x7b' :: rest :=
  ⟨"\x7bLLM_NOTCH_HELPER\x7d\x7d".toList, by decide⟩

variable {platform : Platform} {command : String} {text : List Char}

theorem rewriteText_quoted {helper before after : List Char}
    (hbefore : before = [] ∨ before = spoolAssignment.toList) (hafter : '\x7b' ∉ after)
    (hcommand : command.toList = before ++ '"' :: (helperPlaceholder.toList ++ '"' :: after)) :
    (rewriteText platform helper command).toList =
      before ++ '"' :: (quotedHelper helper ++ '"' :: after) := by
  have hinfix : RustText.contains helperPlaceholder.toList command.toList = true := by
    rw [RustText.contains_iff, hcommand]
    exact ⟨before ++ ['"'], '"' :: after, by simp⟩
  have hplaceholder : hasPlaceholder command.toList = true :=
    List.any_eq_true.2 ⟨helperPlaceholder, by simp [placeholders], hinfix⟩
  have hbrace : '\x7b' ∉ before ++ ['"'] := by
    rcases hbefore with rfl | rfl <;> decide
  have hsplit : command.toList =
      (before ++ ['"']) ++ helperPlaceholder.toList ++ '"' :: after := by
    rw [hcommand]
    simp
  obtain ⟨rest, hrest⟩ := toList_helperPlaceholder
  have honce : RustText.replace helperPlaceholder.toList (quotedHelper helper) command.toList =
      (before ++ ['"']) ++ quotedHelper helper ++ '"' :: after := by
    rw [hsplit, hrest]
    exact RustText.replace_once hbrace (by simpa using hafter)
  rw [rewriteText, hplaceholder, Bool.or_true, if_pos rfl, String.toList_ofList, rewriteCommand,
    if_pos hinfix, honce]
  simp

/-! ## Reading a quoted path -/

theorem stripEnvFrom_quote (fuel : ℕ) (rest : List Char) :
    stripEnvFrom fuel ('"' :: rest) = '"' :: rest := by
  cases fuel with
  | zero => rfl
  | succ fuel =>
    have hname : ('"' :: rest).takeWhile (· ≠ '=') = '"' :: rest.takeWhile (· ≠ '=') := by
      simp
    rw [stripEnvFrom, hname]
    dsimp only
    split
    · rfl
    · rw [if_pos (by simp [isEnvName])]

theorem stripEnvFrom_spool (fuel : ℕ) (rest : List Char) :
    stripEnvFrom (fuel + 2) (spoolAssignment.toList ++ '"' :: rest) = '"' :: rest := by
  have hname : (spoolAssignment.toList ++ '"' :: rest).takeWhile (· ≠ '=') =
      "LLM_NOTCH_EVENT_SPOOL".toList := by
    simp [spoolAssignment]
  have hafter : (spoolAssignment.toList ++ '"' :: rest).drop "LLM_NOTCH_EVENT_SPOOL".toList.length =
      '=' :: '1' :: ' ' :: '"' :: rest := by
    simp [spoolAssignment]
  rw [stripEnvFrom, hname]
  dsimp only
  rw [hafter]
  dsimp only
  rw [if_neg (by decide)]
  have hdigit : RustText.trimStart ('1' :: ' ' :: '"' :: rest) = '1' :: ' ' :: '"' :: rest := rfl
  rw [hdigit]
  dsimp only
  rw [if_pos (by decide)]
  exact stripEnvFrom_quote _ _

/-- The assignment before a quoted path is dropped. -/
theorem stripEnvPrefix_quoted {before : List Char} (path after : List Char)
    (hbefore : before = [] ∨ before = spoolAssignment.toList) :
    ∃ after', after' <+: after ∧
      stripEnvPrefix (RustText.trim (before ++ '"' :: (path ++ '"' :: after))) =
        '"' :: (path ++ '"' :: after') := by
  rcases hbefore with rfl | rfl
  · obtain ⟨after₁, h₁, htrim₁⟩ := RustText.trim_keeps (c := '"') (d := '"') rfl rfl path after
    obtain ⟨after₂, h₂, htrim₂⟩ := RustText.trim_keeps (c := '"') (d := '"') rfl rfl path after₁
    refine ⟨after₂, h₂.trans h₁, ?_⟩
    rw [List.nil_append, htrim₁, stripEnvPrefix, htrim₂]
    exact stripEnvFrom_quote _ _
  · obtain ⟨c, cs, hspool, hc⟩ : ∃ c cs, spoolAssignment.toList = c :: cs ∧
        RustText.isWhitespace c = false :=
      ⟨'L', "LM_NOTCH_EVENT_SPOOL=1 ".toList, by decide, rfl⟩
    have hmiddle (rest : List Char) : spoolAssignment.toList ++ '"' :: (path ++ '"' :: rest) =
        c :: ((cs ++ '"' :: path) ++ '"' :: rest) := by
      rw [hspool]
      simp
    obtain ⟨after₁, h₁, htrim₁⟩ :=
      RustText.trim_keeps hc (d := '"') rfl (cs ++ '"' :: path) after
    obtain ⟨after₂, h₂, htrim₂⟩ :=
      RustText.trim_keeps hc (d := '"') rfl (cs ++ '"' :: path) after₁
    refine ⟨after₂, h₂.trans h₁, ?_⟩
    rw [hmiddle, htrim₁, stripEnvPrefix, htrim₂, ← hmiddle]
    have hlong : 2 ≤ (spoolAssignment.toList ++ '"' :: (path ++ '"' :: after₂)).length := by
      simp only [List.length_append, List.length_cons]
      omega
    obtain ⟨fuel, hfuel⟩ := Nat.exists_eq_add_of_le' hlong
    rw [hfuel]
    exact stripEnvFrom_spool _ _

theorem hasPlaceholder_quoted {path after : List Char} (h : '\x7b' ∉ after) :
    hasPlaceholder ('"' :: (path ++ '"' :: after)) = hasPlaceholder path := by
  have hiff : ∀ placeholder ∈ placeholders,
      (RustText.contains placeholder.toList ('"' :: (path ++ '"' :: after)) = true ↔
        RustText.contains placeholder.toList path = true) := by
    intro placeholder hmem
    have hquote : '"' ∉ placeholder.toList ∧ '\x7b' ∈ placeholder.toList := by
      simp only [placeholders, List.mem_cons, List.not_mem_nil, or_false] at hmem
      rcases hmem with rfl | rfl | rfl <;> decide
    have hempty : ¬ placeholder.toList <:+: [] :=
      RustText.not_infix_of_notMem hquote.2 List.not_mem_nil
    have hrest : ¬ placeholder.toList <:+: after := RustText.not_infix_of_notMem hquote.2 h
    have hopen := RustText.infix_separated hquote.1 [] (path ++ '"' :: after)
    have hclose := RustText.infix_separated hquote.1 path after
    rw [RustText.contains_iff, RustText.contains_iff]
    rw [List.nil_append] at hopen
    rw [hopen, hclose]
    simp [hempty, hrest]
  rw [hasPlaceholder, hasPlaceholder, Bool.eq_iff_iff, List.any_eq_true, List.any_eq_true]
  exact exists_congr fun placeholder => and_congr_right (hiff placeholder)

theorem extractExecutableToken_quoted (path after : List Char) :
    extractExecutableToken ('"' :: (path ++ '"' :: after)) = some (path.takeWhile (· ≠ '"')) := by
  obtain ⟨after', -, htrim⟩ := RustText.trim_keeps (c := '"') (d := '"') rfl rfl path after
  have hmem : '"' ∈ path ++ '"' :: after' := by simp
  have htake : (path ++ '"' :: after').takeWhile (· ≠ '"') = path.takeWhile (· ≠ '"') := by
    rw [List.takeWhile_append]
    split
    · rename_i hall
      rw [List.takeWhile_cons_of_neg (by simp), List.append_nil]
      exact ((List.takeWhile_prefix _).eq_of_length hall).symm
    · rfl
  rw [extractExecutableToken, htrim]
  change (if '"' ∈ path ++ '"' :: after' then _ else _) = _
  rw [if_pos hmem, htake]

theorem unquoteToken_plain {token : List Char} (h : '"' ∉ token) : unquoteToken token = token := by
  have hnone : RustText.stripPre ['"'] token = none := by
    cases token with
    | nil => rfl
    | cons c token =>
      have hne : '"' ≠ c := List.ne_of_not_mem_cons h
      simp [RustText.stripPre, List.isPrefixOf, hne]
  rw [unquoteToken, hnone]
  rfl

/-! ## Paths of the helper -/

/-- `Path::file_name` of a path that does not end in `..`. -/
def fileName (platform : Platform) (text : String) : Option String :=
  (Path.parse platform text).parts.getLast?

/-- A path of the helper : it is absolute, its file name names the helper, and it has no double
quote. -/
structure HelperPath (platform : Platform) where
  bytes : List UInt8
  absolute : isAbsolute platform (Utf8.lossy bytes) = true
  named : (fileName platform (Utf8.lossy bytes)).any isManagedCommand = true
  unquoted : '"' ∉ (Utf8.lossy bytes).toList

theorem infix_of_mem_splitOnP {p : Char → Bool} (text : List Char) :
    (∀ part rest, text.splitOnP p = part :: rest → part <+: text) ∧
      ∀ part ∈ text.splitOnP p, part <:+: text := by
  induction text with
  | nil => simp
  | cons c text ih =>
    obtain ⟨hhead, hmem⟩ := ih
    rw [List.splitOnP_cons_eq_if_modifyHead]
    split
    · refine ⟨fun part rest h => ?_, fun part hpart => ?_⟩
      · obtain ⟨rfl, -⟩ := List.cons.inj h
        exact List.nil_prefix
      · rcases List.mem_cons.1 hpart with rfl | hpart
        · exact List.nil_infix
        · exact List.infix_cons (hmem part hpart)
    · obtain ⟨first, others, hsplit⟩ := List.exists_cons_of_ne_nil (List.splitOnP_ne_nil p text)
      rw [hsplit, List.modifyHead_cons]
      have hfirst : c :: first <+: c :: text := by
        rw [List.prefix_cons_inj]
        exact hhead first others hsplit
      refine ⟨fun part rest h => ?_, fun part hpart => ?_⟩
      · obtain ⟨rfl, -⟩ := List.cons.inj h
        exact hfirst
      · rcases List.mem_cons.1 hpart with rfl | hpart
        · exact hfirst.isInfix
        · refine List.infix_cons (hmem part ?_)
          rw [hsplit]
          exact List.mem_cons_of_mem _ hpart

theorem infix_of_mem_components {part : String} (h : part ∈ components platform text) :
    part.toList <:+: text := by
  obtain ⟨chars, hchars, rfl⟩ := List.mem_map.1 h
  rw [String.toList_ofList]
  exact (infix_of_mem_splitOnP text).2 chars (List.mem_filter.1 hchars).1

/-- What follows the prefix of a path is the end of its text. -/
theorem volumeOf_suffix (platform : Platform) (text : List Char) :
    (volumeOf platform text).2.2 <:+ text := by
  cases platform with
  | unix => exact List.suffix_rfl
  | windows =>
    simp only [volumeOf]
    split
    · split
      · exact (List.suffix_cons _ _).trans (List.suffix_cons _ _)
      · exact List.suffix_rfl
    · split
      · exact ((List.drop_suffix _ _).trans (List.suffix_cons _ _)).trans (List.suffix_cons _ _)
      · exact List.suffix_rfl
    · exact List.suffix_rfl

theorem HelperPath.managed (helper : HelperPath platform) :
    managedMarker.toList <:+: (Utf8.lossy helper.bytes).toList := by
  obtain ⟨name, hname, hmarker⟩ := (Option.any_eq_true _ _).1 helper.named
  have hpart := infix_of_mem_components (List.mem_of_getLast? hname)
  exact (RustText.contains_iff.1 hmarker).trans
    (hpart.trans (volumeOf_suffix _ _).isInfix)

theorem exists_sep_of_rooted (h : (volumeOf platform text).2.1 = true) :
    ∃ c ∈ text, platform.isSep c = true := by
  have hhead {p : Char → Bool} {rest : List Char} (hany : rest.head?.any p = true) :
      ∃ c ∈ rest, p c = true := by
    obtain ⟨c, hc, hp⟩ := (Option.any_eq_true _ _).1 hany
    exact ⟨c, List.mem_of_head? hc, hp⟩
  cases platform with
  | unix => exact hhead h
  | windows =>
    simp only [volumeOf] at h
    split at h
    · split at h
      · obtain ⟨c, hc, hp⟩ := hhead h
        exact ⟨c, List.mem_cons_of_mem _ (List.mem_cons_of_mem _ hc), hp⟩
      · exact ⟨_, List.mem_cons_self, h⟩
    · split at h
      · rename_i hboth
        exact ⟨_, List.mem_cons_self, (Bool.and_eq_true_iff.1 hboth).1⟩
      · exact ⟨_, List.mem_cons_self, h⟩
    · exact hhead h

theorem HelperPath.separator (helper : HelperPath platform) :
    '/' ∈ (Utf8.lossy helper.bytes).toList ∨ '\\' ∈ (Utf8.lossy helper.bytes).toList := by
  have hrooted : (volumeOf platform (Utf8.lossy helper.bytes).toList).2.1 = true := by
    have habsolute := helper.absolute
    cases platform with
    | unix => exact habsolute
    | windows => exact (Bool.and_eq_true_iff.1 habsolute).1
  obtain ⟨c, hc, hsep⟩ := exists_sep_of_rooted hrooted
  cases platform with
  | unix =>
    obtain rfl : c = '/' := by simpa [Platform.isSep] using hsep
    exact .inl hc
  | windows =>
    have hor : c = '/' ∨ c = '\\' := by simpa [Platform.isSep] using hsep
    rcases hor with rfl | rfl
    · exact .inl hc
    · exact .inr hc

/-- A path that survives being put into a quoted command : UTF-8 text without a space and without
a placeholder. -/
def CommandSafe (path : List UInt8) : Prop :=
  ∃ text, Utf8.decode path = some text ∧ ' ' ∉ text.toList ∧ hasPlaceholder text.toList = false

theorem commandSafe_iff (path : List UInt8) :
    CommandSafe path ↔ Utf8.encode (Utf8.lossy path) = path ∧
      ' ' ∉ (Utf8.lossy path).toList ∧ hasPlaceholder (Utf8.lossy path).toList = false := by
  constructor
  · rintro ⟨text, hdecode, hsafe⟩
    have hencode := Utf8.encode_of_decode hdecode
    have hlossy : Utf8.lossy path = text := by rw [← hencode, Utf8.lossy_encode]
    rw [hlossy]
    exact ⟨hencode, hsafe⟩
  · rintro ⟨hencode, hsafe⟩
    refine ⟨Utf8.lossy path, ?_, hsafe⟩
    have hdecode := Utf8.decode_encode (Utf8.lossy path)
    rw [hencode] at hdecode
    exact hdecode

/-! ## What the check reads from a rewritten command -/

theorem executablePath_nil (platform : Platform) : executablePath platform [] = none := by
  cases platform <;> decide

/-- The path of the helper is no bare name. -/
theorem executablePath_helper (helper : HelperPath platform) :
    executablePath platform (Utf8.lossy helper.bytes).toList =
      some (Utf8.encode (Utf8.lossy helper.bytes)) := by
  have hpath : looksLikePath platform (Utf8.lossy helper.bytes).toList = true := by
    rcases helper.separator with h | h <;> simp [looksLikePath, h]
  have hbare (name : String) (hslash : '/' ∉ name.toList) (hback : '\\' ∉ name.toList) :
      (Utf8.lossy helper.bytes).toList ≠ name.toList := by
    intro heq
    rcases helper.separator with h | h
    · exact hslash (heq ▸ h)
    · exact hback (heq ▸ h)
  have hname : ¬ ((Utf8.lossy helper.bytes).toList = "llm-notch-hook".toList ∨
      (Utf8.lossy helper.bytes).toList = "llm-notch-hook.exe".toList) :=
    not_or.2 ⟨hbare _ (by decide) (by decide), hbare _ (by decide) (by decide)⟩
  rw [executablePath, if_neg hname, if_pos hpath, String.ofList_toList]

/-- The text up to the first double quote. -/
theorem takeWhile_unquoted (h : '"' ∉ text) : text.takeWhile (· ≠ '"') = text := by
  induction text with
  | nil => rfl
  | cons c text ih =>
    have hc : c ≠ '"' := (List.ne_of_not_mem_cons h).symm
    rw [List.takeWhile_cons_of_pos (by simpa using hc), ih (List.not_mem_of_not_mem_cons h)]

/-- The path of a rewritten command, where the path is put between the quotes. -/
theorem extract_rewritten (helper : HelperPath platform) (h : QuotesHelper command) :
    extractInvocationPathFromCommand platform
        (rewriteText platform (Utf8.lossy helper.bytes).toList command) =
      if ' ' ∉ (Utf8.lossy helper.bytes).toList ∧
          hasPlaceholder (Utf8.lossy helper.bytes).toList = false then
        some (Utf8.encode (Utf8.lossy helper.bytes))
      else none := by
  obtain ⟨before, after, hbefore, hafter, hcommand⟩ := h
  obtain ⟨after', hpre, hstrip⟩ := stripEnvPrefix_quoted
    (quotedHelper (Utf8.lossy helper.bytes).toList) after hbefore
  have hafter' : '\x7b' ∉ after' := fun hmem => hafter (hpre.subset hmem)
  rw [extractInvocationPathFromCommand, rewriteText_quoted hbefore hafter hcommand, hstrip]
  rw [hasPlaceholder_quoted hafter', extractExecutableToken_quoted, Option.bind_some]
  by_cases hspace : ' ' ∈ (Utf8.lossy helper.bytes).toList
  · -- the path is quoted once more, and nothing stands between the first two quotes
    have hempty : unquoteToken (List.takeWhile (· ≠ '"')
        (quotedHelper (Utf8.lossy helper.bytes).toList)) = [] := by
      rw [quotedHelper, if_pos hspace]
      rfl
    have hunsafe : ¬ (' ' ∉ (Utf8.lossy helper.bytes).toList ∧
        hasPlaceholder (Utf8.lossy helper.bytes).toList = false) := fun hsafe => hsafe.1 hspace
    rw [hempty, executablePath_nil, ite_self, if_neg hunsafe]
  · rw [quotedHelper, if_neg hspace, takeWhile_unquoted helper.unquoted,
      unquoteToken_plain helper.unquoted, executablePath_helper]
    cases hasPlaceholder (Utf8.lossy helper.bytes).toList with
    | true => rw [if_pos rfl, if_neg (by simp)]
    | false => rw [if_neg (by simp), if_pos ⟨hspace, rfl⟩]

theorem isManagedCommand_rewritten (helper : HelperPath platform) (h : QuotesHelper command) :
    isManagedCommand (rewriteText platform (Utf8.lossy helper.bytes).toList command) = true := by
  obtain ⟨before, after, hbefore, hafter, hcommand⟩ := h
  have hquoted : (Utf8.lossy helper.bytes).toList <:+:
      quotedHelper (Utf8.lossy helper.bytes).toList := by
    rw [quotedHelper]
    split
    · exact ⟨['"'], ['"'], by simp⟩
    · exact List.infix_rfl
  rw [isManagedCommand, RustText.contains_iff, rewriteText_quoted hbefore hafter hcommand]
  exact (helper.managed.trans hquoted).trans ⟨before ++ ['"'], '"' :: after, by simp⟩

/-- The commands of a shipped template are managed and lead back to the path of the helper
exactly if the path survives the quotes. -/
theorem commands_run_helper {platform : Platform} (helper : HelperPath platform) {template : Json}
    (h : template ∈ shippedTemplates) :
    (∀ command ∈ allCommands (materializeTemplate platform template helper.bytes),
      isManagedCommand command = true ∧
        extractInvocationPathFromCommand platform command = some helper.bytes) ↔
      CommandSafe helper.bytes := by
  obtain ⟨hall, hne⟩ := shipped_quotesHelper h
  have hcommands : allCommands (materializeTemplate platform template helper.bytes) =
      (allCommands template).map (rewriteText platform (Utf8.lossy helper.bytes).toList) :=
    allCommands_rewriteCommands template
  rw [hcommands, commandSafe_iff]
  constructor
  · intro hrun
    obtain ⟨command, hcommand⟩ := List.exists_mem_of_ne_nil _ hne
    have hextract := (hrun _ (List.mem_map_of_mem hcommand)).2
    rw [extract_rewritten helper (hall command hcommand)] at hextract
    split at hextract
    · rename_i hsafe
      exact ⟨Option.some.inj hextract, hsafe⟩
    · cases hextract
  · rintro ⟨hencode, hsafe⟩ command hcommand
    obtain ⟨raw, hraw, rfl⟩ := List.mem_map.1 hcommand
    refine ⟨isManagedCommand_rewritten helper (hall raw hraw), ?_⟩
    rw [extract_rewritten helper (hall raw hraw), if_pos hsafe, hencode]

/-- The helper where its installer puts it. -/
def installedHelper : HelperPath .unix where
  bytes := Utf8.encode "/opt/llm_notch/llm-notch-hook"
  absolute := by rw [Utf8.lossy_encode]; decide
  named := by rw [Utf8.lossy_encode]; decide
  unquoted := by rw [Utf8.lossy_encode]; decide

theorem commands_run_helper_codex :
    codexTemplate ∈ shippedTemplates ∧
    ∀ command ∈ allCommands (materializeTemplate .unix codexTemplate installedHelper.bytes),
      isManagedCommand command = true ∧
        extractInvocationPathFromCommand .unix command = some installedHelper.bytes :=
  ⟨by simp [shippedTemplates], (commands_run_helper installedHelper (by simp [shippedTemplates])).2
    ⟨"/opt/llm_notch/llm-notch-hook", Utf8.decode_encode _, by decide, by decide⟩⟩

/-- A helper below a directory whose name has a space. -/
def programFilesHelper : HelperPath .windows where
  bytes := Utf8.encode "C:\\Program Files\\llm_notch\\llm-notch-hook.exe"
  absolute := by rw [Utf8.lossy_encode]; decide
  named := by rw [Utf8.lossy_encode]; decide
  unquoted := by rw [Utf8.lossy_encode]; decide

/-- No path is read from a command that is quoted twice. -/
theorem spaced_helper_lost :
    ¬ ∀ (platform : Platform) (helper : HelperPath platform), ∀ template ∈ shippedTemplates,
      ∀ command ∈ allCommands (materializeTemplate platform template helper.bytes),
        isManagedCommand command = true ∧
          extractInvocationPathFromCommand platform command = some helper.bytes := by
  intro hclaim
  have hmem : codexTemplate ∈ shippedTemplates := by simp [shippedTemplates]
  obtain ⟨hquotes, hne⟩ := shipped_quotesHelper hmem
  obtain ⟨raw, hraw⟩ := List.exists_mem_of_ne_nil _ hne
  have hin : rewriteText .windows (Utf8.lossy programFilesHelper.bytes).toList raw ∈
      allCommands (materializeTemplate .windows codexTemplate programFilesHelper.bytes) := by
    rw [allCommands, materializeTemplate, allCommands_rewriteCommands]
    exact List.mem_map_of_mem hraw
  have hspace : ' ' ∈ (Utf8.lossy programFilesHelper.bytes).toList := by
    rw [programFilesHelper, Utf8.lossy_encode]
    decide
  have hread := (hclaim .windows programFilesHelper codexTemplate hmem _ hin).2
  rw [extract_rewritten programFilesHelper (hquotes raw hraw),
    if_neg fun hsafe => hsafe.1 hspace] at hread
  cases hread

end Connector

end LlmNotch
