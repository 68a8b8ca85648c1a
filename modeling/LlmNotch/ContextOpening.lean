import LlmNotch.PaneActivation

/-!
# Opening a context

`openSessionContext` brings the terminal of a session to the front : its host is found among the
ancestors of its process, the bridge of the platform selects a pane or focuses a window, and where
the bridge fails the windows of the process or the application are tried once more. The tier that
is reported is the one that was reached; the one the adapter admits only decides whether there is
an attempt and what is tried after the bridge.

`open_honest` : whatever the platform answers, a context that is reported as activated is backed by
the last call, which is the only one that was accepted, and every call is built from the ids, the
windows and the process of the session. Without an activation no tier is reported, but for a pane
on macOS whose ids are there.
-/

namespace LlmNotch

namespace Context

/-! ## Tiers -/

/-- The tiers in their order. -/
def tierRank : ContextOpenTier → ℕ
  | .none => 0
  | .appActivate => 1
  | .windowFocus => 2
  | .exactPane => 3

def rankTier : ℕ → Option ContextOpenTier
  | 0 => some .none
  | 1 => some .appActivate
  | 2 => some .windowFocus
  | 3 => some .exactPane
  | _ => none

def minTier (left right : ContextOpenTier) : ContextOpenTier :=
  (rankTier (min (tierRank left) (tierRank right))).getD .none

/-- The highest tier to attempt for a host. -/
def achievableTier (host : HostKind) (paneVerified : Bool) : ContextOpenTier :=
  match host, paneVerified with
  | .unknownHost, _ => .appActivate
  | _, true => .exactPane
  | .terminalApp, false | .iTerm2, false | .windowsTerminal, false => .windowFocus
  | .vsCode, false | .cursor, false => .appActivate

/-- The tier an adapter and a host allow together. -/
def capTier (adapterCap : ContextOpenTier) (host : HostKind) (paneVerified : Bool) :
    ContextOpenTier :=
  minTier adapterCap (achievableTier host paneVerified)

def minContextTier : ContextOpenTier → ContextOpenTier → ContextOpenTier
  | .none, _ | _, .none => .none
  | .appActivate, _ | _, .appActivate => .appActivate
  | .windowFocus, _ | _, .windowFocus => .windowFocus
  | .exactPane, .exactPane => .exactPane

def tierDebug : ContextOpenTier → String
  | .none => "None"
  | .appActivate => "AppActivate"
  | .windowFocus => "WindowFocus"
  | .exactPane => "ExactPane"

def HostKind.debug : HostKind → String
  | terminalApp => "TerminalApp"
  | iTerm2 => "ITerm2"
  | windowsTerminal => "WindowsTerminal"
  | vsCode => "VsCode"
  | cursor => "Cursor"
  | unknownHost => "UnknownHost"

/-- What the user is told when less than requested is reached. -/
def fallbackMessage (requested achieved : ContextOpenTier) (host : HostKind) : Option String :=
  if achieved = requested then none
  else some (match requested, achieved with
    | .exactPane, .windowFocus => "Exact pane selection is not verified for this host; focused " ++
        "the nearest window instead."
    | .exactPane, .appActivate | .windowFocus, .appActivate =>
      "Window focus is unavailable; activated the host application instead."
    | _, .none => "Context navigation is unavailable for this session."
    | _, _ => "Requested " ++ tierDebug requested ++ " navigation; achieved " ++
        tierDebug achieved ++ " for " ++ host.debug ++ ".")

/-- The tier of `AdapterCapabilities::response_paths`. -/
def responseContextOpenTier (adapter : AdapterCapabilities) : ContextOpenTier :=
  if adapter.contextOpenTier ≠ .none then adapter.contextOpenTier
  else if adapter.contextOpen then .appActivate
  else .none

def LocatorError.message : LocatorError → String
  | empty => "locator is empty"
  | tooLong => "locator exceeds maximum length"
  | invalidPre => "locator has invalid prefix"
  | unsafeCharacters => "locator contains unsafe characters"
  | invalidEncoding => "locator encoding is invalid"
  | invalidPayload => "locator payload is invalid"
  | invalidPaneHint => "locator pane hint is invalid"
  | invalidVerifiedTerminalField => "locator verified terminal field is invalid"
  | pathEscape => "locator contains path escape"

/-! ## The bridge -/

/-- What an attempt to activate has reached. -/
structure ActivationOutcome where
  achievedTier : ContextOpenTier
  activated : Bool
  detail : Option String

/-- The executable a host is known by. -/
def hostKindToTerminalExecutable : HostKind → String
  | .windowsTerminal => "WindowsTerminal.exe"
  | .vsCode => "Code.exe"
  | .cursor => "Cursor.exe"
  | .terminalApp => "Terminal.app"
  | .iTerm2 => "iTerm2.app"
  | .unknownHost => "unknown"

def metadataFromLocator (locator : ContextLocator) : VerifiedTerminalMetadata where
  applicationId := some (hostKindToTerminalExecutable locator.payload.host)
  windowHandle := locator.verifiedTerminal.windowHandle
  terminalSessionId := locator.verifiedTerminal.terminalSessionId
  tabId := locator.verifiedTerminal.tabId
  paneId := locator.verifiedTerminal.paneId
  wslDistribution := none
  tmuxSession := none

/-- What the platform bridge is told of the process. -/
def processDescriptorFromLocator (locator : ContextLocator) : ProcessDescriptor where
  executable := ""
  parentExecutable := none
  terminalExecutable := some (hostKindToTerminalExecutable locator.payload.host)
  metadata := metadataFromLocator locator

def locatorPid (locator : ContextLocator) : Option ℕ :=
  locator.process.map ProcessIdentity.pid

section Opening

variable (platform : PlatformKind) (os : Os)

/-- The window of the process of a locator. -/
def windowOfLocator (locator : ContextLocator) : Opening (Option ℕ) :=
  match locatorPid locator with
  | none => pure none
  | some pid => hwndForPid os pid

/-- On Windows a window of the process stands in for a handle that is not there. -/
def enrichDescriptor (descriptor : ProcessDescriptor) (locator : ContextLocator) :
    Opening ProcessDescriptor := do
  if platform = .windows ∧ descriptor.metadata.windowHandle = none then
    let window ← windowOfLocator os locator
    pure { descriptor with metadata := { descriptor.metadata with windowHandle := window } }
  else pure descriptor

/-- The locator of the terminal, as far as the platform knows it. -/
def terminalLocatorForActivation (locator : ContextLocator) : Opening TerminalLocator := do
  let descriptor ← enrichDescriptor platform os (processDescriptorFromLocator locator) locator
  pure (discoverLocator platform descriptor)

/-- Ask the bridge of the platform. -/
def activateViaPlatformBridge (locator : ContextLocator) : Opening NavigationOutcome := do
  let terminalLocator ← terminalLocatorForActivation platform os locator
  match platform with
  | .windows => windowsBridge os terminalLocator
  | .macOs => macosBridge os terminalLocator
  | .other => pure (.unsupported (unsupportedExplanation .other))

def detailOf (message : String) : Option String :=
  if message.isEmpty then none else some message

/-- The answer of the bridge as an outcome. -/
def mapNavigationOutcome (outcome : NavigationOutcome) : ActivationOutcome where
  achievedTier := mapPlatformTier outcome.tier
  activated := outcome.disposition = .activated
  detail := detailOf outcome.message

/-! ## After the bridge -/

/-- The detail of the bridge, or another text if there is none. -/
def mergeDetail (bridgeDetail : Option String) (instead : String) : String :=
  (bridgeDetail.filter fun detail => !detail.isEmpty).getD instead

def notActivated (detail : String) : ActivationOutcome := ⟨.none, false, some detail⟩

/-! ### Windows -/

def hostSpecificDetail : HostKind → Option String
  | .windowsTerminal =>
    some "Focused Windows Terminal window via HWND fallback (tab selection is best-effort)."
  | .vsCode | .cursor => some "Activated editor application window."
  | _ => none

/-- Focus the window of the process, if there is one. -/
def focusProcessWindow (locator : ContextLocator) (focused : ActivationOutcome)
    (otherwise : Opening ActivationOutcome) : Opening ActivationOutcome := do
  match ← windowOfLocator os locator with
  | none => otherwise
  | some window =>
    if ← Attempting.ask os.accepts (.focusWindow window) then pure focused else otherwise

/-- Bring the window of the process to the front. -/
def activateApp (locator : ContextLocator) (fallbackTier : ContextOpenTier)
    (bridgeDetail : Option String) : Opening ActivationOutcome :=
  focusProcessWindow os locator
    ⟨fallbackTier, true, bridgeDetail.or (hostSpecificDetail locator.payload.host)⟩
    (pure (notActivated (mergeDetail bridgeDetail ("Could not foreground " ++
      locator.payload.host.debug ++ "; switch to the agent window manually."))))

/-- The way without the bridge on Windows. -/
def legacyActivateWindows (locator : ContextLocator) (targetTier : ContextOpenTier)
    (bridgeDetail : Option String) : Opening ActivationOutcome :=
  match targetTier with
  | .exactPane => focusProcessWindow os locator
      ⟨.windowFocus, true, some (mergeDetail bridgeDetail ("Exact pane selection is not " ++
        "verified on Windows; focused the host window instead."))⟩
      (activateApp os locator .appActivate bridgeDetail)
  | .windowFocus => focusProcessWindow os locator ⟨.windowFocus, true, bridgeDetail⟩
      (activateApp os locator .appActivate bridgeDetail)
  | .appActivate => activateApp os locator .appActivate bridgeDetail
  | .none => pure (notActivated (mergeDetail bridgeDetail "Context navigation tier is none."))

/-! ### macOS -/

/-- The bundle of an application of a context. -/
def bundleIdForHostKind : HostKind → Option String
  | .terminalApp => some "com.apple.Terminal"
  | .iTerm2 => some "com.googlecode.iterm2"
  | .vsCode => some "com.microsoft.VSCode"
  | .cursor => some "com.todesktop.230313mzl4w4u92"
  | .windowsTerminal | .unknownHost => none

/-- The locator names a pane and where it is. -/
def hasVerifiedPaneRoute (locator : ContextLocator) : Bool :=
  locator.verifiedTerminal.paneId.isSome &&
    (locator.verifiedTerminal.tabId.isSome || locator.verifiedTerminal.terminalSessionId.isSome)

def hostDetail (host : HostKind) (tier : ContextOpenTier) : Option String :=
  match host, tier with
  | .terminalApp, .windowFocus | .iTerm2, .windowFocus =>
    some "Activated terminal application (tab/pane selection is best-effort)."
  | .vsCode, .appActivate | .cursor, .appActivate => some "Activated editor application."
  | _, _ => none

/-- Activate an application by its bundle identifier. -/
def activateApplication (host : HostKind) (targetTier : ContextOpenTier)
    (bridgeDetail : Option String) : Opening ActivationOutcome :=
  match bundleIdForHostKind host with
  | none => pure (notActivated (mergeDetail bridgeDetail
      ("No bundle identifier for " ++ host.debug ++ ".")))
  | some bundleId =>
    if os.mainThread then do
      if ← Attempting.ask os.accepts (.launch bundleId) then
        pure ⟨targetTier, true, bridgeDetail.or (hostDetail host targetTier)⟩
      else pure (notActivated (mergeDetail bridgeDetail ("Could not activate " ++ host.debug ++
        "; open the agent application manually.")))
    else pure (notActivated (mergeDetail bridgeDetail ("macOS activation must run on the main " ++
      "thread; try again from the dashboard.")))

/-- Where the ids of a pane are there, the tier is reported in any case. -/
def legacyActivateMacos (locator : ContextLocator) (targetTier : ContextOpenTier)
    (bridgeDetail : Option String) : Opening ActivationOutcome :=
  match targetTier with
  | .exactPane => do
    let outcome ← activateApplication os locator.payload.host .windowFocus bridgeDetail
    if hasVerifiedPaneRoute locator then
      pure ⟨.windowFocus, outcome.activated, some (mergeDetail bridgeDetail ("Exact pane " ++
        "selection could not be verified; focused the host application instead."))⟩
    else
      pure { outcome with detail := some (mergeDetail bridgeDetail ("Exact pane requested " ++
        "without verified pane metadata; focused the host application instead.")) }
  | .none => pure (notActivated (mergeDetail bridgeDetail "Context navigation tier is none."))
  | tier => activateApplication os locator.payload.host tier bridgeDetail

/-! ## Activation -/

/-- The bridge, and what is tried if it does not activate. -/
def activateNative (legacy : ContextLocator → ContextOpenTier → Option String →
    Opening ActivationOutcome) (locator : ContextLocator) (targetTier : ContextOpenTier) :
    Opening ActivationOutcome := do
  let outcome ← activateViaPlatformBridge platform os locator
  if outcome.disposition = .activated then pure (mapNavigationOutcome outcome)
  else legacy locator targetTier (detailOf outcome.message)

/-- Activate with what the platform has. -/
def platformActivate (locator : ContextLocator) (targetTier : ContextOpenTier) :
    Opening ActivationOutcome :=
  match platform with
  | .windows => activateNative .windows os (legacyActivateWindows os) locator targetTier
  | .macOs => activateNative .macOs os (legacyActivateMacos os) locator targetTier
  | .other =>
    pure (notActivated "Context navigation is only supported on macOS and Windows hosts.")

/-- Nothing is tried when no tier is requested. -/
def activate (locator : ContextLocator) (targetTier : ContextOpenTier) :
    Opening ActivationOutcome :=
  if targetTier = .none then pure (notActivated "No context-open tier requested.")
  else platformActivate platform os locator targetTier

/-! ## Sessions -/

/-- What the command returns to the window. -/
structure OpenContextResult where
  contextOpenTier : ContextOpenTier
  activated : Bool
  message : Option String

def notOpened (message : String) : OpenContextResult := ⟨.none, false, some message⟩

def hostFromSource : AgentSource → HostKind
  | .cursor => .cursor
  | _ => .unknownHost

/-- The outcome as it is reported. -/
def reportOutcome (targetTier : ContextOpenTier) (host : HostKind) (outcome : ActivationOutcome) :
    OpenContextResult :=
  ⟨outcome.achievedTier, outcome.activated,
    outcome.detail.or (fallbackMessage targetTier outcome.achievedTier host)⟩

/-- A session without a process. -/
def openFallback (session : AgentSession) (adapterCap : ContextOpenTier) :
    Opening OpenContextResult :=
  let host := hostFromSource session.source
  let tier := capTier adapterCap host false
  if tier = .none then
    pure (notOpened "No live process is attributed to this session; open the agent manually.")
  else match ContextLocator.encode host none none none with
    | .error error => pure (notOpened ("Could not build context locator: " ++ error.message))
    | .ok locator => reportOutcome tier host <$> activate platform os locator tier

/-- Open the terminal of a session. -/
def openSessionContext (table : ProcessTable) (session : AgentSession)
    (adapter : Option AdapterCapabilities) : Opening OpenContextResult :=
  let adapterCap := (adapter.map responseContextOpenTier).getD .none
  if adapterCap = .none ∧ session.processRoot = none then
    pure (notOpened
      "This adapter does not advertise context open and no process is attributed.")
  else match resolveSession platform table session with
    | .error error => pure (notOpened ("Invalid context locator: " ++ error.message))
    | .ok none => openFallback platform os session adapterCap
    | .ok (some resolved) =>
      let hostCap := capTier adapterCap resolved.host resolved.paneVerified
      let targetTier := minContextTier hostCap resolved.discoveredTier
      if targetTier = .none then
        pure (notOpened "Context open is not supported for this adapter.")
      else
        reportOutcome targetTier resolved.host <$> activate platform os resolved.locator targetTier

end Opening

/-! ## What a session may open -/

/-- The ids of the terminal of a session, its window and those of its process. -/
def sessionScope (os : Os) (session : AgentSession) : Scope where
  terminal := session.verifiedTerminal.getD noTerminal
  window handle := (session.verifiedTerminal.getD noTerminal).windowHandle = some handle ∨
    ∃ root done, session.processRoot = some root ∧ os.windowOf done root.pid = some handle

/-- A locator of a context. -/
structure ContextLocator.Locates (os : Os) (locator : ContextLocator) (scope : Scope) : Prop where
  terminal : locator.verifiedTerminal = scope.terminal
  fits : TerminalFits scope.terminal
  window : ∀ handle, scope.terminal.windowHandle = some handle → scope.window handle
  process : ∀ pid done handle, locatorPid locator = some pid →
    os.windowOf done pid = some handle → scope.window handle

section Honesty

variable {platform : PlatformKind} {os : Os} {scope : Scope} {locator : ContextLocator}

theorem looksOnly_windowOfLocator : LooksOnly (windowOfLocator os locator) := by
  unfold windowOfLocator
  split
  · exact .pure _
  · exact fun _ => rfl

theorem ends_windowOfLocator (h : locator.Locates os scope) :
    Ends (windowOfLocator os locator) fun window => ∀ handle, window = some handle →
      scope.window handle ∧ validateWindowHandle handle = true := by
  unfold windowOfLocator
  split
  · exact .pure fun handle hhandle => by cases hhandle
  · rename_i pid hpid
    intro done handle hhandle
    obtain ⟨hwindow, hvalid⟩ := Option.filter_eq_some_iff.1 hhandle
    exact ⟨h.process pid done handle hpid hwindow, hvalid⟩

theorem looksOnly_terminalLocator :
    LooksOnly (terminalLocatorForActivation platform os locator) := by
  unfold terminalLocatorForActivation
  refine .bind ?_ fun descriptor => .pure _
  unfold enrichDescriptor
  split_ifs
  · exact looksOnly_windowOfLocator.bind fun window => .pure _
  · exact .pure _

theorem within_discoverLocator {descriptor : ProcessDescriptor}
    (hsession : descriptor.metadata.terminalSessionId = scope.terminal.terminalSessionId)
    (htab : descriptor.metadata.tabId = scope.terminal.tabId)
    (hpane : descriptor.metadata.paneId = scope.terminal.paneId)
    (hwindow : ∀ handle, descriptor.metadata.windowHandle = some handle → scope.window handle)
    (hfits : TerminalFits scope.terminal) :
    (discoverLocator platform descriptor).Within scope :=
  ⟨hsession, htab, hpane, hwindow, discover_exactPane, hfits⟩

theorem ends_terminalLocator (h : locator.Locates os scope) :
    Ends (terminalLocatorForActivation platform os locator) fun found => found.Within scope := by
  have hsession := congrArg VerifiedTerminalContext.terminalSessionId h.terminal
  have htab := congrArg VerifiedTerminalContext.tabId h.terminal
  have hpane := congrArg VerifiedTerminalContext.paneId h.terminal
  unfold terminalLocatorForActivation enrichDescriptor
  split_ifs
  · refine .bind (P := fun descriptor => (discoverLocator platform descriptor).Within scope) ?_
      fun descriptor hdescriptor => .pure hdescriptor
    refine (ends_windowOfLocator h).bind fun window hwindow => .pure ?_
    exact within_discoverLocator hsession htab hpane
      (fun handle hhandle => (hwindow handle hhandle).1) h.fits
  · refine .pure ?_
    refine within_discoverLocator hsession htab hpane ?_ h.fits
    intro handle hhandle
    refine h.window handle ?_
    rw [← h.terminal]
    exact hhandle

theorem tries_platformBridge (h : locator.Locates os scope) :
    Honest os scope (activateViaPlatformBridge platform os locator) NavigationOutcome.claim := by
  unfold activateViaPlatformBridge
  refine .read looksOnly_terminalLocator (ends_terminalLocator h) fun found hfound => ?_
  cases platform with
  | windows => exact windowsBridge_tries hfound
  | macOs => exact macosBridge_tries hfound
  | other => exact .pure rfl

/-- The tier an outcome claims. -/
def ActivationOutcome.claim (outcome : ActivationOutcome) : Option ContextOpenTier :=
  if outcome.activated then some outcome.achievedTier else none

theorem claim_mapNavigationOutcome {outcome : NavigationOutcome}
    (h : outcome.disposition = .activated) :
    (mapNavigationOutcome outcome).claim = outcome.claim := by
  unfold ActivationOutcome.claim NavigationOutcome.claim mapNavigationOutcome
  simp [h]

/-! ## After the bridge -/

variable {focused : ActivationOutcome} {otherwise : Opening ActivationOutcome}
  {detail : Option String} {targetTier : ContextOpenTier} {host : HostKind}
  {legacy : ContextLocator → ContextOpenTier → Option String → Opening ActivationOutcome}
  {terminal : VerifiedTerminalContext}

theorem tries_focusProcessWindow (h : locator.Locates os scope)
    (hactivated : focused.activated = true)
    (htier : focused.achievedTier = .windowFocus ∨ focused.achievedTier = .appActivate)
    (hotherwise : Honest os scope otherwise ActivationOutcome.claim) :
    Honest os scope (focusProcessWindow os locator focused otherwise) ActivationOutcome.claim := by
  refine .read looksOnly_windowOfLocator (ends_windowOfLocator h) ?_
  rintro (_ | window) hwindow
  · exact hotherwise
  · exact .request (hwindow window rfl) (if_pos hactivated) htier hotherwise

theorem tries_activateApp (h : locator.Locates os scope) :
    Honest os scope (activateApp os locator .appActivate detail) ActivationOutcome.claim :=
  tries_focusProcessWindow h rfl (.inr rfl) (.pure rfl)

theorem tries_legacyActivateWindows (h : locator.Locates os scope) :
    Honest os scope (legacyActivateWindows os locator targetTier detail)
      ActivationOutcome.claim := by
  cases targetTier with
  | none => exact .pure rfl
  | appActivate => exact tries_activateApp h
  | windowFocus => exact tries_focusProcessWindow h rfl (.inl rfl) (tries_activateApp h)
  | exactPane => exact tries_focusProcessWindow h rfl (.inl rfl) (tries_activateApp h)

theorem mem_bundleIds_hostKind {bundleId : String} (h : bundleIdForHostKind host = some bundleId) :
    bundleId ∈ bundleIds := by
  cases host
  case terminalApp | iTerm2 | vsCode | cursor =>
    cases h
    decide
  case windowsTerminal | unknownHost => cases h

theorem tries_activateApplication {claim : ActivationOutcome → Option ContextOpenTier}
    {shown : ContextOpenTier} (hshown : shown = .windowFocus ∨ shown = .appActivate)
    (hyes : ∀ detail, claim ⟨targetTier, true, detail⟩ = some shown)
    (hno : ∀ detail, claim (notActivated detail) = none) :
    Honest os scope (activateApplication os host targetTier detail) claim := by
  unfold activateApplication
  cases hbundle : bundleIdForHostKind host with
  | none => exact .pure (hno _)
  | some bundleId =>
    dsimp only
    split_ifs
    · exact .request (mem_bundleIds_hostKind hbundle) (hyes _) hshown (.pure (hno _))
    · exact .pure (hno _)

/-- Whether a window was brought to the front. -/
def windowClaim (outcome : ActivationOutcome) : Option ContextOpenTier :=
  if outcome.activated then some .windowFocus else none

theorem tries_legacyActivateMacos :
    Honest os scope (legacyActivateMacos os locator targetTier detail) ActivationOutcome.claim := by
  cases targetTier with
  | none => exact .pure rfl
  | appActivate => exact tries_activateApplication (.inr rfl) (fun _ => rfl) fun _ => rfl
  | windowFocus => exact tries_activateApplication (.inl rfl) (fun _ => rfl) fun _ => rfl
  | exactPane =>
    unfold legacyActivateMacos
    dsimp only
    split_ifs
    · have hwindow : Honest os scope
          (activateApplication os locator.payload.host .windowFocus detail) windowClaim :=
        tries_activateApplication (.inl rfl) (fun _ => rfl) fun _ => rfl
      exact hwindow.bind (fun outcome tier h => ⟨_, rfl, h⟩) fun outcome h => .pure h
    · have hsame : Honest os scope
          (activateApplication os locator.payload.host .windowFocus detail)
          ActivationOutcome.claim :=
        tries_activateApplication (.inl rfl) (fun _ => rfl) fun _ => rfl
      exact hsame.bind (fun outcome tier h => ⟨_, rfl, h⟩) fun outcome h => .pure h

/-! ## Activation -/

theorem tries_activateNative (h : locator.Locates os scope)
    (hlegacy : ∀ detail, Honest os scope (legacy locator targetTier detail)
      ActivationOutcome.claim) :
    Honest os scope (activateNative platform os legacy locator targetTier)
      ActivationOutcome.claim := by
  refine (tries_platformBridge h).bind ?_ ?_
  · intro outcome tier hclaim
    have hactivated : outcome.disposition = .activated := by
      unfold NavigationOutcome.claim at hclaim
      split_ifs at hclaim with hactivated
      exact hactivated
    rw [if_pos hactivated]
    exact ⟨_, rfl, (claim_mapNavigationOutcome hactivated).trans hclaim⟩
  · intro outcome hclaim
    have hactivated : outcome.disposition ≠ .activated := by
      unfold NavigationOutcome.claim at hclaim
      split_ifs at hclaim with hactivated
      exact hactivated
    rw [if_neg hactivated]
    exact hlegacy _

theorem tries_activate (h : locator.Locates os scope) :
    Honest os scope (activate platform os locator targetTier) ActivationOutcome.claim := by
  unfold activate
  split_ifs
  · exact .pure rfl
  · cases platform with
    | windows => exact tries_activateNative h fun _ => tries_legacyActivateWindows h
    | macOs => exact tries_activateNative h fun _ => tries_legacyActivateMacos
    | other => exact .pure rfl

/-! ## The tier without an activation -/

/-- No tier, or the tier of a pane that was not selected. -/
def ActivationOutcome.Admits (platform : PlatformKind) (terminal : VerifiedTerminalContext)
    (outcome : ActivationOutcome) : Prop :=
  outcome.activated = false → outcome.achievedTier = .none ∨
    platform = .macOs ∧ outcome.achievedTier = .windowFocus ∧
      terminal.paneId.isSome = true ∧
        (terminal.tabId.isSome = true ∨ terminal.terminalSessionId.isSome = true)

theorem admits_notActivated (detail : String) :
    (notActivated detail).Admits platform terminal := fun _ => .inl rfl

theorem admits_activated {outcome : ActivationOutcome} (h : outcome.activated = true) :
    outcome.Admits platform terminal := by
  intro hnot
  rw [h] at hnot
  cases hnot

theorem ends_any {α : Type} (m : Opening α) : Ends m fun _ => True := fun _ => trivial

theorem ends_focusProcessWindow (hactivated : focused.activated = true)
    (hotherwise : Ends otherwise (ActivationOutcome.Admits platform terminal)) :
    Ends (focusProcessWindow os locator focused otherwise)
      (ActivationOutcome.Admits platform terminal) := by
  refine (ends_any _).bind ?_
  rintro (_ | window) -
  · exact hotherwise
  · refine (ends_any _).bind fun accepted _ => ?_
    split_ifs
    · exact .pure (admits_activated hactivated)
    · exact hotherwise

theorem ends_activateApp {tier : ContextOpenTier} : Ends (activateApp os locator tier detail)
      (ActivationOutcome.Admits platform terminal) :=
  ends_focusProcessWindow rfl (.pure (admits_notActivated _))

theorem ends_legacyActivateWindows :
    Ends (legacyActivateWindows os locator targetTier detail)
      (ActivationOutcome.Admits platform terminal) := by
  cases targetTier with
  | none => exact .pure (admits_notActivated _)
  | appActivate => exact ends_activateApp
  | windowFocus => exact ends_focusProcessWindow rfl ends_activateApp
  | exactPane => exact ends_focusProcessWindow rfl ends_activateApp

theorem ends_activateApplication : Ends (activateApplication os host targetTier detail)
      fun outcome => outcome.activated = false → outcome.achievedTier = .none := by
  unfold activateApplication
  split
  · exact .pure fun _ => rfl
  · split_ifs
    · refine (ends_any _).bind fun accepted _ => ?_
      split_ifs
      · exact .pure fun h => by cases h
      · exact .pure fun _ => rfl
    · exact .pure fun _ => rfl

theorem ends_legacyActivateMacos :
    Ends (legacyActivateMacos os locator targetTier detail)
      (ActivationOutcome.Admits .macOs locator.verifiedTerminal) := by
  have happlication : ∀ tier, Ends (activateApplication os locator.payload.host tier detail)
      (ActivationOutcome.Admits .macOs locator.verifiedTerminal) :=
    fun tier done h => .inl (ends_activateApplication done h)
  cases targetTier with
  | none => exact .pure (admits_notActivated _)
  | appActivate => exact happlication _
  | windowFocus => exact happlication _
  | exactPane =>
    unfold legacyActivateMacos
    dsimp only
    split_ifs with hroute
    · refine (ends_any _).bind fun outcome _ => .pure fun _ => ?_
      simp only [hasVerifiedPaneRoute, Bool.and_eq_true, Bool.or_eq_true] at hroute
      exact .inr ⟨rfl, rfl, hroute⟩
    · exact (happlication _).bind fun outcome h => .pure h

theorem ends_activateNative (hlegacy : ∀ detail, Ends (legacy locator targetTier detail)
      (ActivationOutcome.Admits platform terminal)) :
    Ends (activateNative platform os legacy locator targetTier)
      (ActivationOutcome.Admits platform terminal) := by
  refine (ends_any _).bind fun outcome _ => ?_
  split_ifs with hactivated
  · refine .pure (admits_activated ?_)
    unfold mapNavigationOutcome
    simp [hactivated]
  · exact hlegacy _

theorem ends_activate :
    Ends (activate platform os locator targetTier)
      (ActivationOutcome.Admits platform locator.verifiedTerminal) := by
  unfold activate
  split_ifs
  · exact .pure (admits_notActivated _)
  · cases platform with
    | windows => exact ends_activateNative fun _ => ends_legacyActivateWindows
    | macOs => exact ends_activateNative fun _ => ends_legacyActivateMacos
    | other => exact .pure (admits_notActivated _)

/-! ## Sessions -/

def OpenContextResult.claim (result : OpenContextResult) : Option ContextOpenTier :=
  if result.activated then some result.contextOpenTier else none

/-- The locator of a session locates its context. -/
theorem locates_resolved {table : ProcessTable} {session : AgentSession}
    {resolved : ResolvedContext}
    (h : resolveSession platform table session = .ok (some resolved)) (os : Os) :
    resolved.locator.Locates os (sessionScope os session) := by
  cases hroot : session.processRoot with
  | none =>
    unfold resolveSession at h
    rw [hroot] at h
    cases h
  | some root =>
    obtain ⟨locator, hencode, rfl⟩ := (resolveSession_eq_ok hroot).1 h
    obtain ⟨-, hfits, -, rfl⟩ := encode_eq_ok.1 hencode
    refine ⟨rfl, hfits, fun handle hhandle => .inl hhandle, ?_⟩
    rintro pid done handle ⟨⟩ hwindow
    exact .inr ⟨root, done, hroot, hwindow⟩

/-- Without a process there is nothing in the locator but the host. -/
theorem locates_fallback (h : ContextLocator.encode host none none none = .ok locator) (os : Os) :
    locator.Locates os ⟨noTerminal, fun _ => False⟩ := by
  obtain ⟨-, hfits, -, rfl⟩ := encode_eq_ok.1 h
  refine ⟨rfl, hfits, ?_, ?_⟩
  · intro handle hhandle
    cases hhandle
  · intro pid done handle hpid
    cases hpid

theorem allowed_of_fallback {call : OsCall}
    (h : call.Allowed ⟨noTerminal, fun _ => False⟩) : call.Allowed scope := by
  have hno : ∀ index, ¬ IsIndex none index := by
    rintro index ⟨text, htext, -⟩
    cases htext
  cases call with
  | wt args =>
    obtain ⟨-, -, pane, -, -, -, hpane⟩ := h
    exact absurd hpane (hno pane)
  | osascript script =>
    obtain ⟨-, -, pane, -, -, -, hpane⟩ := h
    exact absurd hpane (hno pane)
  | openBundle bundleId => exact h
  | launch bundleId => exact h
  | focusVerifiedWindow handle => exact absurd h.1 id
  | focusWindow handle => exact absurd h.1 id

variable {table : ProcessTable} {session : AgentSession} {adapter : Option AdapterCapabilities}
  {adapterCap : ContextOpenTier}

theorem tries_openFallback : Honest os scope (openFallback platform os session adapterCap)
    OpenContextResult.claim := by
  unfold openFallback
  dsimp only
  split_ifs
  · exact .pure rfl
  · split
    · exact .pure rfl
    · rename_i locator hencode
      refine Tries.mono ?_ fun call h => allowed_of_fallback h
      exact .map (tries_activate (locates_fallback hencode os)) fun _ => rfl

theorem tries_openSessionContext :
    Honest os (sessionScope os session) (openSessionContext platform os table session adapter)
      OpenContextResult.claim := by
  unfold openSessionContext
  dsimp only
  split_ifs
  · exact .pure rfl
  · split
    · exact .pure rfl
    · exact tries_openFallback
    · rename_i resolved hresolved
      split_ifs
      · exact .pure rfl
      · exact .map (tries_activate (locates_resolved hresolved os)) fun _ => rfl

/-- No tier is reported without an activation, but where the ids of a pane are there. -/
def OpenContextResult.Admits (platform : PlatformKind) (terminal : VerifiedTerminalContext)
    (result : OpenContextResult) : Prop :=
  result.activated = false → result.contextOpenTier = .none ∨
    platform = .macOs ∧ result.contextOpenTier = .windowFocus ∧ terminal.paneId.isSome = true ∧
      (terminal.tabId.isSome = true ∨ terminal.terminalSessionId.isSome = true)

theorem ends_openFallback :
    Ends (openFallback platform os session adapterCap)
      (OpenContextResult.Admits platform terminal) := by
  unfold openFallback
  dsimp only
  split_ifs
  · exact .pure fun _ => .inl rfl
  · split
    · exact .pure fun _ => .inl rfl
    · rename_i locator hencode
      refine .map ends_activate fun outcome hadmits hactivated => ?_
      refine (hadmits hactivated).imp id fun h => ?_
      have hpane := h.2.2.1
      rw [(locates_fallback hencode os).terminal] at hpane
      cases hpane

theorem ends_openSessionContext :
    Ends (openSessionContext platform os table session adapter)
      (OpenContextResult.Admits platform (session.verifiedTerminal.getD noTerminal)) := by
  unfold openSessionContext
  dsimp only
  split_ifs
  · exact .pure fun _ => .inl rfl
  · split
    · exact .pure fun _ => .inl rfl
    · exact ends_openFallback
    · rename_i resolved hresolved
      split_ifs
      · exact .pure fun _ => .inl rfl
      · refine .map ends_activate fun outcome hadmits => ?_
        rw [(locates_resolved hresolved os).terminal] at hadmits
        exact hadmits

theorem capTier_none (host : HostKind) (paneVerified : Bool) :
    capTier .none host paneVerified = .none := by
  cases host <;> cases paneVerified <;> rfl

theorem looksOnly_activate_other : LooksOnly (activate .other os locator targetTier) := by
  unfold activate
  split_ifs
  · exact .pure _
  · exact .pure _

theorem looksOnly_openFallback (h : adapterCap = .none ∨ platform = .other) :
    LooksOnly (openFallback platform os session adapterCap) := by
  unfold openFallback
  dsimp only
  split_ifs with htier
  · exact .pure _
  · obtain rfl | rfl := h
    · exact absurd (capTier_none _ _) htier
    · split
      · exact .pure _
      · exact looksOnly_activate_other.map _

/-- Nothing is asked for an adapter without a tier, and nowhere but on the two platforms. -/
theorem looksOnly_openSessionContext
    (h : (adapter.map responseContextOpenTier).getD .none = .none ∨ platform = .other) :
    LooksOnly (openSessionContext platform os table session adapter) := by
  unfold openSessionContext
  dsimp only
  split_ifs
  · exact .pure _
  · split
    · exact .pure _
    · exact looksOnly_openFallback h
    · split_ifs with htarget
      · exact .pure _
      · obtain h | rfl := h
        · rw [h, capTier_none] at htarget
          exact absurd rfl htarget
        · exact looksOnly_activate_other.map _

/-- An activation that is reported is backed by the last call, the only one that was accepted, and
every call is one that the session may make. -/
theorem open_honest (platform : PlatformKind) (os : Os) (table : ProcessTable)
    (session : AgentSession) (adapter : Option AdapterCapabilities) :
    let run := openSessionContext platform os table session adapter []
    Vouched os.accepts (OsCall.Allowed (sessionScope os session)) OsCall.Backs [] run.2
        run.1.claim ∧
      run.1.Admits platform (session.verifiedTerminal.getD noTerminal) ∧
      ((adapter.map responseContextOpenTier).getD .none = .none ∨ platform = .other →
        run.2 = []) := by
  intro run
  refine ⟨?_, ends_openSessionContext [], fun h => looksOnly_openSessionContext h []⟩
  obtain ⟨calls, hcalls, hvouched⟩ := tries_openSessionContext []
  rw [List.nil_append] at hcalls
  subst hcalls
  exact hvouched

end Honesty

end Context

end LlmNotch
