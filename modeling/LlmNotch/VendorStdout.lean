import LlmNotch.JsonValue
import LlmNotch.Protocol
import LlmNotch.RustText

/-!
# Vendor standard output of a decision

`buildVendorStdout` maps a broker response to the text the hook prints, for the Claude
hooks whose response shape is documented. Every other source, an unknown hook, an
unrecognised Claude version and a plan approval without an input object are errors, never
an output.
-/

namespace LlmNotch

/-! ## Claude Code versions -/

/-- The version profile of a Claude Code installation. -/
inductive ClaudeVersionProfile where
  | known (claudeCodeVersion : List Char)
  | unknown (claudeCodeVersion : Option (List Char))
  deriving DecidableEq

def stripVersionPrefix (raw : List Char) : List Char :=
  RustText.trim
    (((RustText.stripPre "Claude Code ".toList raw).or
      (RustText.stripPre "claude-code ".toList raw)).getD raw)

/-- A version of at least 2.1.0. A missing or unreadable patch number counts as zero. -/
def isKnownClaudeSemver (raw : List Char) : Bool :=
  let parts := raw.splitOn '.'
  let major := parts[0]?.bind RustText.parseU64
  let minor := parts[1]?.bind RustText.parseU64
  let patch := (parts[2]?.bind fun part =>
    RustText.parseU64 (RustText.trimEndMatches (fun c => !RustText.isAsciiDigit c) part)).getD 0
  match major, minor with
  | some major, some minor =>
    decide (2 < major ∨ (major = 2 ∧ (1 < minor ∨ (minor = 1 ∧ 0 ≤ patch))))
  | _, _ => false

def detectVersion (claudeCodeVersion : Option String) : ClaudeVersionProfile :=
  match (claudeCodeVersion.map fun v => RustText.trim v.toList).filter (· ≠ []) with
  | none => .unknown none
  | some raw =>
    let normalized := stripVersionPrefix raw
    if isKnownClaudeSemver normalized then .known normalized else .unknown (some normalized)

/-- Capabilities of the Claude adapter. Decisions can be answered only on a known version. -/
def claudeCapabilities (profile : ClaudeVersionProfile) : AdapterCapabilities :=
  let caps := { AdapterCapabilities.template .claudeCode with
    observeLifecycle := true
    observeTools := true
    events := true
    attention := .partially
    processAttribution := .unknown
    contextOpen := false
    contextOpenTier := .none
    failOpenHooks := true
    requiresExternalTrust := false
    respondQuestions := false }
  match profile with
  | .known _ => { caps with
      respondDecisions := true
      decisionResponse := true
      contextOpen := true
      contextOpenTier := .appActivate }
  | .unknown _ => { caps with respondDecisions := false, decisionResponse := false }

/-! ## Response builders -/

/-- Vendor hooks with a documented allow and deny response. -/
inductive ClaudeRespondableHook where
  | permissionRequest
  | exitPlanModePreToolUse
  deriving DecidableEq

inductive ClaudePermissionDecision where
  | allow
  | deny (message : Option String) (interrupt : Bool)
  deriving DecidableEq

inductive ResponseBuildError where
  | exitPlanUpdatedInputMustBeObject
  deriving DecidableEq

def ResponseBuildError.display : ResponseBuildError → String
  | exitPlanUpdatedInputMustBeObject =>
    "ExitPlanMode approval requires updatedInput to be a JSON object"

/-- The decision object of a permission response, its fields in key order. -/
def permissionDecisionObject : ClaudePermissionDecision → Json
  | .allow => .obj [("behavior", .str "allow")]
  | .deny message interrupt =>
    .obj ([("behavior", .str "deny")] ++ (if interrupt then [("interrupt", .bool true)] else []) ++
      (message.map fun m => ("message", Json.str m)).toList)

def buildPermissionResponse (decision : ClaudePermissionDecision) : Json :=
  .obj [("hookSpecificOutput", .obj [("decision", permissionDecisionObject decision),
    ("hookEventName", .str "PermissionRequest")])]

def buildExitPlanApproveResponse (updatedInput : Json) : Except ResponseBuildError Json :=
  match updatedInput with
  | .obj fields => .ok (.obj [("hookSpecificOutput", .obj [("hookEventName", .str "PreToolUse"),
      ("permissionDecision", .str "allow"), ("updatedInput", .obj fields)])])
  | _ => .error .exitPlanUpdatedInputMustBeObject

/-- The response of a hook to an action. -/
def buildDecisionResponse (hook : ClaudeRespondableHook) (action : DecisionResponseAction)
    (updatedInput : Option Json) : Except ResponseBuildError Json :=
  match hook, action with
  | .permissionRequest, .allow => .ok (buildPermissionResponse .allow)
  | .permissionRequest, .deny =>
    .ok (buildPermissionResponse (.deny (some "Denied by llm_notch") false))
  | .exitPlanModePreToolUse, .allow => buildExitPlanApproveResponse (updatedInput.getD (.obj []))
  | .exitPlanModePreToolUse, .deny =>
    .ok (.obj [("hookSpecificOutput", .obj [("hookEventName", .str "PreToolUse"),
      ("permissionDecision", .str "deny"),
      ("permissionDecisionReason", .str "Plan not approved")])])

/-! ## The adapter gate -/

inductive AdapterBuildError where
  | capabilityDisabled
  | unsupportedHook (hook : String)
  | questionUnsupported
  | buildFailed (detail : String)
  deriving DecidableEq

def AdapterBuildError.display : AdapterBuildError → String
  | capabilityDisabled => "decision responses are disabled for this adapter"
  | unsupportedHook hook => "unsupported respondable hook `" ++ hook ++ "`"
  | questionUnsupported => "question answers are not supported in protocol v1"
  | buildFailed detail => "vendor response build failed: " ++ detail

/-- The first of two spellings of a field that a document has. -/
def Json.getEither (v : Json) (snake camel : String) : Option Json :=
  (v.get snake).or (v.get camel)

/-- The hook a registration names. -/
def respondableHook : Option String → Except AdapterBuildError ClaudeRespondableHook
  | some hook =>
    if hook = "permissionRequest" then .ok .permissionRequest
    else if hook = "exitPlanModePreToolUse" then .ok .exitPlanModePreToolUse
    else .error (.unsupportedHook hook)
  | none => .error .capabilityDisabled

def buildClaudeStdout (hookName : Option String) (action : DecisionResponseAction)
    (vendorContext : Option Json) : Except AdapterBuildError String :=
  match respondableHook hookName with
  | .error e => .error e
  | .ok hook =>
    let version := vendorContext.bind fun value =>
      (value.getEither "claude_code_version" "claudeCodeVersion").bind Json.asStr
    let caps := claudeCapabilities (detectVersion version)
    if !caps.respondDecisions && !caps.decisionResponse then .error .capabilityDisabled
    else
      let updatedInput := vendorContext.bind fun value =>
        value.getEither "updated_input" "updatedInput"
      match buildDecisionResponse hook action updatedInput with
      | .ok value => .ok value.text
      | .error e => .error (.buildFailed e.display)

/-- The text the hook prints for a response, when the source has a verified response path. -/
def buildVendorStdout (source : AgentSource) (hookName : Option String)
    (response : DecisionResponse) (vendorContext : Option Json) :
    Except AdapterBuildError String :=
  match response with
  | .answer _ => .error .questionUnsupported
  | .action action =>
    match source with
    | .claudeCode | .qwen => buildClaudeStdout hookName action vendorContext
    | .cursor | .codex | .gemini | .antigravityCli | .copilotCli | .generic | .unknown =>
      .error .capabilityDisabled

def neutralStdout : String := decisionHookNeutralOutput

end LlmNotch
