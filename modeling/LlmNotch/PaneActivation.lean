import LlmNotch.Attempts
import LlmNotch.SessionContext

/-!
# Activation of panes and windows

The bridges of the platforms to a terminal : on Windows a pane is selected with `wt` and a window
is focused by its handle, on macOS a pane is selected by a script and an application is opened.
`OsCall` are these calls; whether one succeeds is the platform's answer (`Os`). An exact pane is
tried first, then what contains it.

`windowsBridge_tries`, `macosBridge_tries` : an outcome that is `activated` is backed by the last
call, which is the only one that succeeded, and every call is built from the ids of the terminal by
their numbers (`OsCall.Allowed`).
-/

namespace LlmNotch

namespace Context

/-! ## Calls -/

inductive OsCall where
  | wt (args : List String)
  | osascript (script : String)
  | openBundle (bundleId : String)
  | focusVerifiedWindow (handle : ℕ)
  | focusWindow (handle : ℕ)
  | launch (bundleId : String)
  deriving DecidableEq

/-- What the platform answers, given the calls before. -/
structure Os where
  accepts : List OsCall → OsCall → Bool
  windowOf : List OsCall → ℕ → Option ℕ
  mainThread : Bool

abbrev Opening := Attempting OsCall

def validateWindowHandle (handle : ℕ) : Bool :=
  handle ≠ 0 && handle < 2 ^ 63

/-- The window of a process that is visible, if there is one. -/
def hwndForPid (os : Os) (pid : ℕ) : Opening (Option ℕ) :=
  fun done => ((os.windowOf done pid).filter validateWindowHandle, done)

inductive NavigationDisposition where
  | activated
  | requiresHostBridge
  | requiresPlatformImplementation
  | activationFailed
  | unsupported
  deriving DecidableEq

structure NavigationOutcome where
  tier : NavigationTier
  disposition : NavigationDisposition
  message : String

def NavigationOutcome.unsupported (message : String) : NavigationOutcome :=
  ⟨.unsupported, .unsupported, message⟩

inductive HostBridgeOutcome where
  | activated (message : String)
  | unavailable (message : String)
  | notApplicable

/-- What discovery finds. -/
structure TerminalLocator where
  host : TerminalHost
  tier : NavigationTier
  metadata : VerifiedTerminalMetadata

/-- `current_navigator().discover`, with the metadata. -/
def discoverLocator (platform : PlatformKind) (process : ProcessDescriptor) : TerminalLocator :=
  ⟨(discover platform process).1, (discover platform process).2, process.metadata⟩

/-- The explanation of a locator that is not supported. -/
def unsupportedExplanation : PlatformKind → String
  | .windows => "no verified application, window, or pane navigation metadata is available"
  | .macOs => "no verified application or pane navigation metadata is available"
  | .other => "terminal navigation is not implemented on this platform"

def TerminalHost.debug : TerminalHost → String
  | windowsTerminal => "WindowsTerminal"
  | consoleHost => "ConsoleHost"
  | powerShell => "PowerShell"
  | vsCode => "VsCode"
  | cursor => "Cursor"
  | wezTerm => "WezTerm"
  | wsl => "Wsl"
  | tmux => "Tmux"
  | macTerminal => "MacTerminal"
  | iTerm2 => "ITerm2"
  | other name => "Other(\"" ++ name ++ "\")"
  | unknown => "Unknown"

def activatedTier : NavigationTier → NavigationTier
  | .exactPane => .windowFocus
  | tier => tier

def activationFailed (tier : NavigationTier) (message : String) : NavigationOutcome :=
  ⟨activatedTier tier, .activationFailed, message⟩

def isActivated (outcome : Option NavigationOutcome) : Bool :=
  outcome.any fun outcome => outcome.disposition = .activated

/-- A bridge : the pane if it is exact, otherwise what contains it. -/
def activateBridge (tier : NavigationTier) (pane : Opening HostBridgeOutcome)
    (whole : Opening (Option NavigationOutcome)) (explanation instead missing : String) :
    Opening NavigationOutcome :=
  if tier = .unsupported then pure (.unsupported explanation)
  else if tier = .exactPane then do
    match ← pane with
    | .activated message => pure ⟨.exactPane, .activated, message⟩
    | .unavailable message => do
      let outcome ← whole
      if isActivated outcome then pure ⟨.windowFocus, .activated, message ++ instead⟩
      else pure (activationFailed tier message)
    | .notApplicable => (·.getD (activationFailed tier missing)) <$> whole
  else (·.getD (activationFailed tier missing)) <$> whole

/-! ## Indices -/

/-- Digits, in the range of `u32`. -/
def parseIndex (value : List Char) : Option ℕ :=
  if value ≠ [] ∧ value.all RustText.isAsciiDigit ∧ RustText.digitsValue value < 2 ^ 32 then
    some (RustText.digitsValue value)
  else none

/-- `str::parse::<i32>`. -/
def parseI32 (value : List Char) : Option ℤ :=
  let negative := value.head? = some '-'
  let digits := if negative ∨ value.head? = some '+' then value.tail else value
  let number : ℤ := if negative then -RustText.digitsValue digits else RustText.digitsValue digits
  if digits ≠ [] ∧ digits.all RustText.isAsciiDigit ∧ -2 ^ 31 ≤ number ∧ number < 2 ^ 31 then
    some number
  else none

def parseWtIndex (value : String) : Option ℕ :=
  parseIndex (RustText.trim value.toList)

/-! ## Windows -/

inductive WtWindowTarget where
  | last
  | index (index : ℤ)
  | name (name : String)
  | unsupportedSessionGuid

def isAsciiHexdigit (c : Char) : Bool :=
  RustText.isAsciiDigit c || (65 ≤ c.toNat && c.toNat ≤ 70) || (97 ≤ c.toNat && c.toNat ≤ 102)

/-- All characters are checked to be of one byte. -/
def looksLikeSessionGuid (value : List Char) : Bool :=
  value.length = 36 && value[8]? = some '-' && value[13]? = some '-' && value[18]? = some '-' &&
    value[23]? = some '-' && (value.filter (· ≠ '-')).all isAsciiHexdigit

def parseWtWindowTarget (sessionId : String) : WtWindowTarget :=
  let trimmed := RustText.trim sessionId.toList
  if trimmed = [] then .last
  else if lowercase trimmed = "last" ∨ trimmed = ['0'] then .last
  else if looksLikeSessionGuid trimmed then .unsupportedSessionGuid
  else match parseI32 trimmed with
    | some index => .index index
    | none => .name (String.ofList trimmed)

/-- The window a tab is looked for in. -/
def windowArgs : Option String → Except String (List String)
  | none => .ok []
  | some sessionId => match parseWtWindowTarget sessionId with
    | .last => .ok ["-w", "0"]
    | .index index => .ok ["-w", Json.intText index]
    | .name name => .ok ["-w", name]
    | .unsupportedSessionGuid => .error ("terminal_session_id looks like a WT_SESSION GUID; " ++
        "wt.exe cannot focus tabs by session GUID yet")

def paneArgs (tab pane : ℕ) : List String :=
  ["focus-tab", "-t", tab.repr, ";", "focus-pane", "-t", pane.repr]

def buildWtExactPaneCommand (metadata : VerifiedTerminalMetadata) :
    Except String (List String) :=
  match metadata.tabId, metadata.paneId with
  | none, _ => .error "tab_id is required for Windows Terminal exact-pane activation"
  | some _, none => .error "pane_id is required for Windows Terminal exact-pane activation"
  | some tabId, some paneId =>
    match parseWtIndex tabId, parseWtIndex paneId with
    | none, _ => .error ("tab_id `" ++ tabId ++ "` is not a Windows Terminal tab index")
    | some _, none => .error ("pane_id `" ++ paneId ++ "` is not a Windows Terminal pane index")
    | some tab, some pane => do
      let window ← windowArgs metadata.terminalSessionId
      return window ++ paneArgs tab pane

section Windows

variable (os : Os)

def activateWindowsTerminalExactPane (metadata : VerifiedTerminalMetadata) :
    Opening HostBridgeOutcome :=
  match buildWtExactPaneCommand metadata with
  | .error reason => pure (.unavailable reason)
  | .ok args => do
    if ← Attempting.ask os.accepts (.wt args) then
      pure (.activated "Activated Windows Terminal tab and pane via wt.exe")
    else pure (.unavailable "wt.exe is unavailable or rejected the exact-pane command")

def tryWindowsExactPane (locator : TerminalLocator) : Opening HostBridgeOutcome :=
  if locator.tier ≠ .exactPane then pure .notApplicable
  else match locator.host with
    | .windowsTerminal => activateWindowsTerminalExactPane os locator.metadata
    | .other name =>
      if name = "conemu" then
        pure (.unavailable ("ConEmu exact-pane activation is not implemented; wt.exe-style " ++
          "session targeting is unavailable for this host"))
      else pure .notApplicable
    | _ => pure .notApplicable

def activateVerifiedWindow (locator : TerminalLocator) : Opening (Option NavigationOutcome) :=
  match locator.metadata.windowHandle with
  | none => pure none
  | some handle =>
    if validateWindowHandle handle = false then
      pure (some (activationFailed locator.tier "the verified window handle is invalid"))
    else do
      if ← Attempting.ask os.accepts (.focusVerifiedWindow handle) then
        pure (some ⟨activatedTier locator.tier, .activated,
          if locator.tier = .exactPane then "Focused the verified host window; exact pane " ++
            "activation requires a terminal-specific bridge"
          else "Focused the verified host window"⟩)
      else pure (some (activationFailed locator.tier
        "Win32 rejected foreground activation for the verified window handle"))

/-- `WindowsHostActivationBridge::activate`. -/
def windowsBridge (locator : TerminalLocator) : Opening NavigationOutcome :=
  activateBridge locator.tier (tryWindowsExactPane os locator) (activateVerifiedWindow os locator)
    (unsupportedExplanation .windows) "; focused the verified host window instead"
    "Windows activation requires a verified native window handle"

end Windows

/-! ## macOS -/

def parseMacIndex (field label : String) : Except String ℕ :=
  let trimmed := RustText.trim field.toList
  if trimmed = [] ∨ trimmed.all RustText.isAsciiDigit = false then
    .error (label ++ " `" ++ field ++ "` is not a 1-based tab or pane index")
  else match parseIndex trimmed with
    | none => .error (label ++ " `" ++ field ++ "` is not a valid index")
    | some 0 => .error (label ++ " `" ++ field ++ "` must be a 1-based index")
    | some index => .ok index

/-- The script that selects a tab of the front window. -/
def macTerminalScript (tab : ℕ) : String :=
  "tell application \"Terminal\"\n    activate\n    set targetWindow to front window\n" ++
    "    set selected tab of targetWindow to tab " ++ tab.repr ++ " of targetWindow\nend tell"

def buildMacTerminalTabScript (tabId : String) : Except String String := do
  let tab ← parseMacIndex tabId "tab_id"
  return macTerminalScript tab

/-- The script that selects a pane, of the current window or of one with a number. -/
def iterm2Script (window : Option ℕ) (tab pane : ℕ) : String :=
  "tell application \"iTerm\"\n    activate\n    tell " ++
    (match window with
      | none => "current window"
      | some window => "window " ++ window.repr) ++
    "\n        tell tab " ++ tab.repr ++ "\n            select session " ++ pane.repr ++
    "\n        end tell\n    end tell\nend tell"

/-- Without a tab the session id is the number of the tab. -/
def buildIterm2ExactPaneScript (metadata : VerifiedTerminalMetadata) : Except String String :=
  match metadata.tabId.or metadata.terminalSessionId, metadata.paneId with
  | none, _ => .error "tab_id or terminal_session_id is required for iTerm2 exact-pane activation"
  | some _, none => .error "pane_id is required for iTerm2 exact-pane activation"
  | some tabId, some paneId => do
    let tab ← parseMacIndex tabId "tab_id"
    let pane ← parseMacIndex paneId "pane_id"
    match metadata.terminalSessionId, metadata.tabId with
    | some sessionId, some _ => do
      let window ← parseMacIndex sessionId "terminal_session_id"
      return iterm2Script (some window) tab pane
    | _, _ => return iterm2Script none tab pane

def bundleIdForHost : TerminalHost → Option String
  | .macTerminal => some "com.apple.Terminal"
  | .iTerm2 => some "com.googlecode.iterm2"
  | .vsCode => some "com.microsoft.VSCode"
  | .cursor => some "com.todesktop.230313mzl4w4u92"
  | _ => none

def unsupportedHostMessage : TerminalHost → String
  | .unknown => "macOS activation requires a recognized terminal or editor host"
  | .other name =>
    name ++ " host activation is not implemented on macOS; open the session manually"
  | host =>
    host.debug ++ " host activation is not implemented on macOS; open the session manually"

section MacOs

variable (os : Os)

/-- A script is run for a pane. -/
def runScript (script : Except String String) (done refused : String) :
    Opening HostBridgeOutcome :=
  match script with
  | .error reason => pure (.unavailable reason)
  | .ok script => do
    if ← Attempting.ask os.accepts (.osascript script) then pure (.activated done)
    else pure (.unavailable refused)

def activateMacTerminalExactPane (metadata : VerifiedTerminalMetadata) :
    Opening HostBridgeOutcome :=
  if metadata.paneId.isSome then
    pure (.unavailable ("Terminal.app does not expose verified split-pane selection via " ++
      "AppleScript; tab-only activation is unavailable when pane_id is present"))
  else match metadata.tabId with
    | none => pure (.unavailable "tab_id is required for Terminal.app tab activation")
    | some tabId => runScript os (buildMacTerminalTabScript tabId)
        "Activated Terminal.app and selected the verified tab via AppleScript"
        "osascript rejected the Terminal.app tab-selection script"

def activateIterm2ExactPane (metadata : VerifiedTerminalMetadata) : Opening HostBridgeOutcome :=
  runScript os (buildIterm2ExactPaneScript metadata)
    "Activated iTerm2 and selected the verified tab/session via AppleScript"
    "osascript rejected the iTerm2 exact-pane script"

def tryMacosExactPane (locator : TerminalLocator) : Opening HostBridgeOutcome :=
  if locator.tier ≠ .exactPane then pure .notApplicable
  else match locator.host with
    | .macTerminal => activateMacTerminalExactPane os locator.metadata
    | .iTerm2 => activateIterm2ExactPane os locator.metadata
    | .vsCode | .cursor => pure (.unavailable (locator.host.debug ++
        " exact-pane activation is not implemented on macOS; editor panel selection requires a " ++
        "host-specific bridge"))
    | _ => pure .notApplicable

def activateMacosApplication (locator : TerminalLocator) : Opening (Option NavigationOutcome) :=
  match bundleIdForHost locator.host with
  | none => pure none
  | some bundleId => do
    if ← Attempting.ask os.accepts (.openBundle bundleId) then
      pure (some ⟨activatedTier locator.tier, .activated,
        "Activated " ++ locator.host.debug ++ " via bundle identifier"⟩)
    else pure (some (activationFailed locator.tier
      ("open -b rejected activation for " ++ bundleId)))

/-- `MacOsHostActivationBridge::activate`. -/
def macosBridge (locator : TerminalLocator) : Opening NavigationOutcome :=
  activateBridge locator.tier (tryMacosExactPane os locator) (activateMacosApplication os locator)
    (unsupportedExplanation .macOs) "; activated the host application instead"
    (unsupportedHostMessage locator.host)

end MacOs

/-! ## What is asked of the platform -/

/-- The number an id is, with digits only. -/
def IsIndex (id : Option String) (index : ℕ) : Prop :=
  ∃ text, id = some text ∧ parseIndex (RustText.trim text.toList) = some index

/-- Whose context is opened : the ids of its terminal, and the windows that are its own. -/
structure Scope where
  terminal : VerifiedTerminalContext
  window : ℕ → Prop

/-- The option of the window of a tab, if there is one : a number, or a name of plain characters. -/
def IsTarget (args : List String) : Prop :=
  args = [] ∨ ∃ target, args = ["-w", target] ∧ ∀ c ∈ target.toList, isPlain c = true

/-- The applications that are opened. -/
def bundleIds : List String :=
  ["com.apple.Terminal", "com.googlecode.iterm2", "com.microsoft.VSCode",
    "com.todesktop.230313mzl4w4u92"]

/-- What may be asked for a context. -/
def OsCall.Allowed (scope : Scope) : OsCall → Prop
  | wt args => ∃ window tab pane, args = window ++ paneArgs tab pane ∧ IsTarget window ∧
      IsIndex scope.terminal.tabId tab ∧ IsIndex scope.terminal.paneId pane
  | osascript script => ∃ window tab pane, script = iterm2Script window tab pane ∧
      (∀ index, window = some index → IsIndex scope.terminal.terminalSessionId index) ∧
      IsIndex (scope.terminal.tabId.or scope.terminal.terminalSessionId) tab ∧
      IsIndex scope.terminal.paneId pane
  | openBundle bundleId | launch bundleId => bundleId ∈ bundleIds
  | focusVerifiedWindow handle | focusWindow handle =>
    scope.window handle ∧ validateWindowHandle handle = true

/-- The tiers that a call can bring about. -/
def OsCall.Backs : OsCall → ContextOpenTier → Prop
  | wt _, tier | osascript _, tier => tier = .exactPane
  | _, tier => tier = .windowFocus ∨ tier = .appActivate

/-- A locator with the ids and a window of a context. -/
structure TerminalLocator.Within (locator : TerminalLocator) (scope : Scope) : Prop where
  session : locator.metadata.terminalSessionId = scope.terminal.terminalSessionId
  tab : locator.metadata.tabId = scope.terminal.tabId
  pane : locator.metadata.paneId = scope.terminal.paneId
  window : ∀ handle, locator.metadata.windowHandle = some handle → scope.window handle
  exact : locator.tier = .exactPane → locator.metadata.paneId.isSome = true
  plain : TerminalFits scope.terminal

def NavigationOutcome.claim (outcome : NavigationOutcome) : Option ContextOpenTier :=
  if outcome.disposition = .activated then some (mapPlatformTier outcome.tier) else none

/-- The tier of an exact pane. -/
def HostBridgeOutcome.claim : HostBridgeOutcome → Option ContextOpenTier
  | activated _ => some .exactPane
  | _ => none

/-! ## Indices and names -/

theorem plain_repr (n : ℕ) : ∀ c ∈ n.repr.toList, isPlain c = true := by
  intro c hc
  rw [Nat.repr_eq_ofList_toDigits, String.toList_ofList] at hc
  have hdigit := Nat.isDigit_of_mem_toDigits (by decide) (by decide) hc
  rw [Char.isDigit_iff_toNat] at hdigit
  have hascii : RustText.isAsciiDigit c = true := by
    simpa [RustText.isAsciiDigit] using hdigit
  simp [isPlain, RustText.isAsciiAlphanumeric, hascii]

theorem plain_intText (n : ℤ) : ∀ c ∈ (Json.intText n).toList, isPlain c = true := by
  unfold Json.intText
  split_ifs
  · intro c hc
    rw [String.toList_append, List.mem_append] at hc
    rcases hc with hc | hc
    · obtain rfl : c = '-' := by simpa using hc
      decide
    · exact plain_repr _ c hc
  · exact plain_repr _

theorem plain_trim {value : List Char} (h : ∀ c ∈ value, isPlain c = true) :
    ∀ c ∈ RustText.trim value, isPlain c = true := by
  intro c hc
  unfold RustText.trim at hc
  rw [List.mem_reverse] at hc
  have hmem := (List.dropWhile_sublist _).subset hc
  rw [List.mem_reverse] at hmem
  exact h c ((List.dropWhile_sublist _).subset hmem)

theorem parseWtWindowTarget_name {sessionId name : String}
    (h : parseWtWindowTarget sessionId = .name name) :
    name = String.ofList (RustText.trim sessionId.toList) := by
  unfold parseWtWindowTarget at h
  dsimp only at h
  split_ifs at h
  split at h
  · cases h
  · exact (WtWindowTarget.name.inj h).symm

theorem isTarget_windowArgs {id : Option String} {args : List String}
    (hplain : ∀ value, id = some value → Fits maxTerminalIdLen isPlain value)
    (h : windowArgs id = .ok args) : IsTarget args := by
  cases id with
  | none =>
    cases h
    exact .inl rfl
  | some value =>
    unfold windowArgs at h
    dsimp only at h
    split at h
    · cases h
      refine .inr ⟨"0", rfl, fun c hc => ?_⟩
      obtain rfl : c = '0' := by simpa using hc
      decide
    · cases h
      exact .inr ⟨_, rfl, plain_intText _⟩
    · rename_i name hname
      cases h
      refine .inr ⟨name, rfl, ?_⟩
      rw [parseWtWindowTarget_name hname, String.toList_ofList]
      exact plain_trim (hplain value rfl).allowed
    · cases h

theorem weakerTier_ne_exactPane (platform : PlatformKind) (metadata : VerifiedTerminalMetadata) :
    weakerTier platform metadata ≠ .exactPane := by
  unfold weakerTier
  split_ifs <;> decide

/-- An exact pane needs the id of the pane, whatever the host. -/
theorem discover_exactPane {platform : PlatformKind} {process : ProcessDescriptor}
    (h : (discover platform process).2 = .exactPane) : process.metadata.paneId.isSome = true := by
  have hweaker := weakerTier_ne_exactPane platform process.metadata
  cases platform with
  | windows =>
    change resolveTierWindows (discoverHost classifyWindowsHost process) process.metadata = _ at h
    unfold resolveTierWindows at h
    dsimp only at h
    split_ifs at h with hexact
    · split at hexact <;> simp_all [hasAllIds]
    · exact absurd h hweaker
  | macOs =>
    change resolveTierMacos (discoverHost classifyMacosHost process) process.metadata = _ at h
    unfold resolveTierMacos at h
    dsimp only at h
    split_ifs at h with hexact
    · split at hexact <;> simp_all [hasAllIds]
    · exact absurd h hweaker
  | other => cases h

/-! ## Windows -/

theorem buildWtExactPaneCommand_allowed {scope : Scope} {locator : TerminalLocator}
    {args : List String} (hwithin : locator.Within scope)
    (h : buildWtExactPaneCommand locator.metadata = .ok args) : (OsCall.wt args).Allowed scope := by
  unfold buildWtExactPaneCommand at h
  rw [hwithin.tab, hwithin.pane, hwithin.session] at h
  split at h
  · cases h
  · cases h
  · rename_i tabId paneId htabId hpaneId
    split at h
    · cases h
    · cases h
    · rename_i tab pane htab hpane
      obtain ⟨window, hwindow, h⟩ := bind_eq_ok.1 h
      cases h
      exact ⟨window, tab, pane, rfl,
        isTarget_windowArgs (fun value hvalue => hwithin.plain value (.inl hvalue)) hwindow,
        ⟨tabId, htabId, htab⟩, ⟨paneId, hpaneId, hpane⟩⟩

example : buildWtExactPaneCommand ⟨none, none, some "2", some "1", some "0", none, none⟩ =
    .ok ["-w", "2", "focus-tab", "-t", "1", ";", "focus-pane", "-t", "0"] := by
  rfl

section Bridges

variable {os : Os} {scope : Scope} {locator : TerminalLocator}

/-- What is asked of the platform may be asked for the context, and backs what is claimed. -/
abbrev Honest (os : Os) (scope : Scope) {α : Type} (m : Opening α)
    (claim : α → Option ContextOpenTier) : Prop :=
  Tries os.accepts (OsCall.Allowed scope) OsCall.Backs m claim

theorem tries_activateWindowsTerminal (hwithin : locator.Within scope) :
    Honest os scope (activateWindowsTerminalExactPane os locator.metadata)
      HostBridgeOutcome.claim := by
  unfold activateWindowsTerminalExactPane
  cases hargs : buildWtExactPaneCommand locator.metadata with
  | error reason => exact .pure rfl
  | ok args =>
    exact .request (buildWtExactPaneCommand_allowed hwithin hargs) rfl rfl (.pure rfl)

theorem tries_windowsExactPane (hwithin : locator.Within scope) :
    Honest os scope (tryWindowsExactPane os locator) HostBridgeOutcome.claim := by
  unfold tryWindowsExactPane
  split_ifs with htier
  · exact .pure rfl
  · split
    · exact tries_activateWindowsTerminal hwithin
    · split_ifs
      · exact .pure rfl
      · exact .pure rfl
    · exact .pure rfl

/-- What contains a pane is brought to the front, with the tier for it. -/
def BringsForward (os : Os) (scope : Scope) (tier : NavigationTier)
    (whole : Opening (Option NavigationOutcome)) : Prop :=
  ∀ claim : Option NavigationOutcome → Option ContextOpenTier, claim none = none →
    (∀ message, claim (some (activationFailed tier message)) = none) →
    (∃ shown, (shown = .windowFocus ∨ shown = .appActivate) ∧
      ∀ message, claim (some ⟨activatedTier tier, .activated, message⟩) = some shown) →
    Honest os scope whole claim

theorem backs_activatedTier {tier : NavigationTier} (h : tier ≠ .unsupported) :
    mapPlatformTier (activatedTier tier) = .windowFocus ∨
      mapPlatformTier (activatedTier tier) = .appActivate := by
  cases tier with
  | unsupported => exact absurd rfl h
  | appActivate => exact .inr rfl
  | windowFocus => exact .inl rfl
  | exactPane => exact .inl rfl

theorem tries_activateBridge {tier : NavigationTier} {pane : Opening HostBridgeOutcome}
    {whole : Opening (Option NavigationOutcome)} {explanation instead missing : String}
    (hpane : Honest os scope pane HostBridgeOutcome.claim)
    (hwhole : BringsForward os scope tier whole) :
    Honest os scope (activateBridge tier pane whole explanation instead missing)
      NavigationOutcome.claim := by
  unfold activateBridge
  by_cases hunsupported : tier = .unsupported
  · rw [if_pos hunsupported]
    exact .pure rfl
  have hrest : Honest os scope ((·.getD (activationFailed tier missing)) <$> whole)
      NavigationOutcome.claim := by
    refine .map (hwhole (fun outcome => outcome.bind NavigationOutcome.claim) rfl (fun _ => rfl)
      ⟨_, backs_activatedTier hunsupported, fun _ => rfl⟩) ?_
    rintro (_ | outcome) <;> rfl
  rw [if_neg hunsupported]
  by_cases hexact : tier = .exactPane
  · rw [if_pos hexact]
    refine hpane.bind ?_ ?_
    · rintro (message | message | _) claimed hclaimed
      · exact ⟨_, rfl, hclaimed⟩
      · cases hclaimed
      · cases hclaimed
    · rintro (message | message | _) hclaimed
      · cases hclaimed
      · subst hexact
        have hfirst := hwhole
          (fun outcome => if isActivated outcome then some .windowFocus else none)
          rfl (fun _ => rfl) ⟨.windowFocus, .inl rfl, fun _ => rfl⟩
        refine hfirst.bind ?_ ?_
        · intro outcome claimed hclaimed
          split_ifs at hclaimed with hactivated
          rw [if_pos hactivated]
          exact ⟨_, rfl, hclaimed⟩
        · intro outcome hclaimed
          split_ifs at hclaimed with hactivated
          rw [if_neg hactivated]
          exact .pure rfl
      · exact hrest
  · rw [if_neg hexact]
    exact hrest

theorem tries_activateVerifiedWindow (hwithin : locator.Within scope) :
    BringsForward os scope locator.tier (activateVerifiedWindow os locator) := by
  rintro claim hnone hfailed ⟨shown, hbacks, hshown⟩
  unfold activateVerifiedWindow
  cases hhandle : locator.metadata.windowHandle with
  | none => exact .pure hnone
  | some handle =>
    dsimp only
    by_cases hvalid : validateWindowHandle handle = false
    · rw [if_pos hvalid]
      exact .pure (hfailed _)
    · rw [if_neg hvalid]
      exact .request ⟨hwithin.window handle hhandle, by simpa using hvalid⟩ (hshown _) hbacks
        (.pure (hfailed _))

theorem windowsBridge_tries (hwithin : locator.Within scope) :
    Honest os scope (windowsBridge os locator) NavigationOutcome.claim :=
  tries_activateBridge (tries_windowsExactPane hwithin) (tries_activateVerifiedWindow hwithin)

/-! ## macOS -/

theorem parseMacIndex_eq_ok {field label : String} {index : ℕ}
    (h : parseMacIndex field label = .ok index) :
    parseIndex (RustText.trim field.toList) = some index := by
  unfold parseMacIndex at h
  dsimp only at h
  split_ifs at h
  split at h
  · cases h
  · cases h
  · rename_i parsed _ hparsed
    cases h
    exact hparsed

theorem buildIterm2ExactPaneScript_allowed {script : String} (hwithin : locator.Within scope)
    (h : buildIterm2ExactPaneScript locator.metadata = .ok script) :
    (OsCall.osascript script).Allowed scope := by
  unfold buildIterm2ExactPaneScript at h
  rw [hwithin.tab, hwithin.pane, hwithin.session] at h
  split at h
  · cases h
  · cases h
  · rename_i tabId paneId htabId hpaneId
    obtain ⟨tab, htab, h⟩ := bind_eq_ok.1 h
    obtain ⟨pane, hpane, h⟩ := bind_eq_ok.1 h
    have htab' : IsIndex (scope.terminal.tabId.or scope.terminal.terminalSessionId) tab :=
      ⟨tabId, htabId, parseMacIndex_eq_ok htab⟩
    have hpane' : IsIndex scope.terminal.paneId pane := ⟨paneId, hpaneId, parseMacIndex_eq_ok hpane⟩
    split at h
    · rename_i sessionId _ hsession _
      obtain ⟨window, hwindow, h⟩ := bind_eq_ok.1 h
      cases h
      refine ⟨some window, tab, pane, rfl, ?_, htab', hpane'⟩
      rintro index ⟨⟩
      exact ⟨sessionId, hsession, parseMacIndex_eq_ok hwindow⟩
    · cases h
      refine ⟨none, tab, pane, rfl, ?_, htab', hpane'⟩
      intro index hindex
      cases hindex

theorem tries_activateIterm2 (hwithin : locator.Within scope) :
    Honest os scope (activateIterm2ExactPane os locator.metadata) HostBridgeOutcome.claim := by
  unfold activateIterm2ExactPane runScript
  cases hscript : buildIterm2ExactPaneScript locator.metadata with
  | error reason => exact .pure rfl
  | ok script =>
    exact .request (buildIterm2ExactPaneScript_allowed hwithin hscript) rfl rfl (.pure rfl)

/-- A pane of `Terminal` is never selected : its id is there. -/
theorem activateMacTerminalExactPane_eq {metadata : VerifiedTerminalMetadata}
    (h : metadata.paneId.isSome = true) : activateMacTerminalExactPane os metadata =
      pure (.unavailable ("Terminal.app does not expose verified split-pane selection via " ++
        "AppleScript; tab-only activation is unavailable when pane_id is present")) :=
  if_pos h

theorem tries_macosExactPane (hwithin : locator.Within scope) :
    Honest os scope (tryMacosExactPane os locator) HostBridgeOutcome.claim := by
  unfold tryMacosExactPane
  by_cases htier : locator.tier ≠ .exactPane
  · rw [if_pos htier]
    exact .pure rfl
  · rw [if_neg htier]
    split
    · rw [activateMacTerminalExactPane_eq (hwithin.exact (not_not.1 htier))]
      exact .pure rfl
    · exact tries_activateIterm2 hwithin
    · exact .pure rfl
    · exact .pure rfl
    · exact .pure rfl

theorem mem_bundleIds {host : TerminalHost} {bundleId : String}
    (h : bundleIdForHost host = some bundleId) : bundleId ∈ bundleIds := by
  unfold bundleIdForHost at h
  split at h
  case h_5 => cases h
  all_goals
    cases h
    decide

theorem tries_activateMacosApplication :
    BringsForward os scope locator.tier (activateMacosApplication os locator) := by
  rintro claim hnone hfailed ⟨shown, hbacks, hshown⟩
  unfold activateMacosApplication
  cases hbundle : bundleIdForHost locator.host with
  | none => exact .pure hnone
  | some bundleId => exact .request (mem_bundleIds hbundle) (hshown _) hbacks (.pure (hfailed _))

theorem macosBridge_tries (hwithin : locator.Within scope) :
    Honest os scope (macosBridge os locator) NavigationOutcome.claim :=
  tries_activateBridge (tries_macosExactPane hwithin) tries_activateMacosApplication

end Bridges

end Context

end LlmNotch
