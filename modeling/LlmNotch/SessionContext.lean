import LlmNotch.ContextLocator
import LlmNotch.CoreDomain
import LlmNotch.FilePaths

/-!
# Opening the context of a session

`resolveSession` looks for the application a session runs in among the ancestors of its process
and makes a locator of it, with the workspace label as a pane hint. A workspace label is free
text of at most 256 bytes; `paneHintForSession` takes its first 64 characters, but a locator only
takes hints of letters, digits, space, `-`, `_` and `.`. Terminal ids pass the same checks before
they are stored and here, but three of the longest do not fit into one token.

`resolve_opens_iff` : a session with a process is opened, and its token parsed to the same
locator, exactly if the hint is in the alphabet and the payload has room.
-/

namespace LlmNotch

namespace Context

/-! ## Terminals of a platform -/

inductive PlatformKind where
  | windows
  | macOs
  | other
  deriving DecidableEq

inductive TerminalHost where
  | windowsTerminal
  | consoleHost
  | powerShell
  | vsCode
  | cursor
  | wezTerm
  | wsl
  | tmux
  | macTerminal
  | iTerm2
  | other (name : String)
  | unknown
  deriving DecidableEq

inductive NavigationTier where
  | unsupported
  | appActivate
  | windowFocus
  | exactPane
  deriving DecidableEq

structure VerifiedTerminalMetadata where
  applicationId : Option String
  windowHandle : Option ℕ
  terminalSessionId : Option String
  tabId : Option String
  paneId : Option String
  wslDistribution : Option String
  tmuxSession : Option String

structure ProcessDescriptor where
  executable : String
  parentExecutable : Option String
  terminalExecutable : Option String
  metadata : VerifiedTerminalMetadata

def lowercase (text : List Char) : String :=
  String.ofList (text.map RustText.toAsciiLowercase)

/-- `Path::file_name`, or what is given instead, in lower case. -/
def baseName (platform : Files.Platform) (path instead : String) : String :=
  let fileName := (Files.Path.parse platform path).parts.getLast?.filter (· ≠ "..")
  lowercase (fileName.getD instead).toList

def classifyWindowsHost (executable : String) : TerminalHost :=
  let normalized := String.ofList (executable.toList.map fun c => if c = '\\' then '/' else c)
  let fileName := baseName .windows normalized executable
  if fileName ∈ ["windowsterminal.exe", "wt.exe"] then .windowsTerminal
  else if fileName ∈ ["conemu.exe", "conemu64.exe", "conemuc.exe", "conemuc64.exe"] then
    .other "conemu"
  else if fileName ∈ ["conhost.exe", "cmd.exe"] then .consoleHost
  else if fileName ∈ ["powershell.exe", "pwsh.exe"] then .powerShell
  else if fileName = "code.exe" then .vsCode
  else if fileName = "cursor.exe" then .cursor
  else if fileName ∈ ["wezterm.exe", "wezterm-gui.exe"] then .wezTerm
  else if fileName ∈ ["wsl.exe", "wslhost.exe"] then .wsl
  else if fileName ∈ ["tmux", "tmux.exe"] then .tmux
  else .unknown

def classifyMacosHost (executable : String) : TerminalHost :=
  let name := baseName .unix executable executable
  if name ∈ ["terminal", "terminal.app"] then .macTerminal
  else if name ∈ ["iterm2", "iterm2.app"] then .iTerm2
  else if name ∈ ["code", "code.app", "visual studio code.app"] then .vsCode
  else if name ∈ ["cursor", "cursor.app"] then .cursor
  else .unknown

def hasAllIds (metadata : VerifiedTerminalMetadata) : Bool :=
  metadata.terminalSessionId.isSome && metadata.tabId.isSome && metadata.paneId.isSome

/-- What is there without an exact pane; only one platform focuses windows. -/
def weakerTier (platform : PlatformKind) (metadata : VerifiedTerminalMetadata) : NavigationTier :=
  if platform = .windows ∧ metadata.windowHandle.isSome then .windowFocus
  else if metadata.applicationId.isSome then .appActivate
  else .unsupported

def resolveTierWindows (host : TerminalHost) (metadata : VerifiedTerminalMetadata) :
    NavigationTier :=
  let exactPane := match host with
    | .windowsTerminal | .vsCode | .cursor => hasAllIds metadata
    | .other name => name = "conemu" && hasAllIds metadata
    | .wezTerm => metadata.paneId.isSome
    | .wsl | .tmux =>
      metadata.wslDistribution.isSome && metadata.tmuxSession.isSome && metadata.paneId.isSome
    | _ => false
  if exactPane then .exactPane else weakerTier .windows metadata

def resolveTierMacos (host : TerminalHost) (metadata : VerifiedTerminalMetadata) :
    NavigationTier :=
  let exactPane := match host with
    | .macTerminal | .iTerm2 =>
      metadata.paneId.isSome && (metadata.tabId.isSome || metadata.terminalSessionId.isSome)
    | .vsCode | .cursor => hasAllIds metadata
    | _ => false
  if exactPane then .exactPane else weakerTier .macOs metadata

/-- The executables in the order in which they are asked. -/
def discoverHost (classify : String → TerminalHost) (process : ProcessDescriptor) : TerminalHost :=
  let known (executable : Option String) : Option TerminalHost :=
    (executable.map classify).filter (· ≠ .unknown)
  ((known process.terminalExecutable).or (known process.parentExecutable)).getD
    (classify process.executable)

/-- `current_navigator().discover`. -/
def discover (platform : PlatformKind) (process : ProcessDescriptor) :
    TerminalHost × NavigationTier :=
  match platform with
  | .windows =>
    let host := discoverHost classifyWindowsHost process
    (host, resolveTierWindows host process.metadata)
  | .macOs =>
    let host := discoverHost classifyMacosHost process
    (host, resolveTierMacos host process.metadata)
  | .other => (.unknown, .unsupported)

/-! ## The host of a process -/

/-- A process as the system lists it. -/
structure ProcessEntry where
  name : String
  parent : Option ℕ

abbrev ProcessTable := ℕ → Option ProcessEntry

def maxParentHops : ℕ := 15

structure NavigationDiscovery where
  host : HostKind
  tier : ContextOpenTier
  deriving DecidableEq

def buildVerifiedMetadata (terminalExecutable : String)
    (verifiedTerminal : Option VerifiedTerminalContext) : VerifiedTerminalMetadata :=
  let terminal := verifiedTerminal.getD noTerminal
  { applicationId := some terminalExecutable
    windowHandle := terminal.windowHandle
    terminalSessionId := terminal.terminalSessionId
    tabId := terminal.tabId
    paneId := terminal.paneId
    wslDistribution := none
    tmuxSession := none }

def mapPlatformHost : TerminalHost → Option HostKind
  | .windowsTerminal => some .windowsTerminal
  | .vsCode => some .vsCode
  | .cursor => some .cursor
  | .macTerminal => some .terminalApp
  | .iTerm2 => some .iTerm2
  | _ => none

def mapPlatformTier : NavigationTier → ContextOpenTier
  | .unsupported => .none
  | .appActivate => .appActivate
  | .windowFocus => .windowFocus
  | .exactPane => .exactPane

def hostFromProcessName (name : String) : Option HostKind :=
  let normalized := lowercase name.toList
  let has (part : String) : Bool := RustText.contains part.toList normalized.toList
  if has "windowsterminal" then some .windowsTerminal
  else if normalized = "cursor" ∨ has "cursor.exe" then some .cursor
  else if normalized = "code" ∨ has "code.exe" ∨ has "code - insiders" then some .vsCode
  else if normalized = "terminal" ∨ has "terminal.app" then some .terminalApp
  else if has "iterm2" ∨ normalized = "iterm" then some .iTerm2
  else none

section Detection

variable (platform : PlatformKind) (table : ProcessTable)

def discoverVerifiedProcess (fallbackHost : HostKind) (rootExecutable terminalExecutable : String)
    (verifiedTerminal : Option VerifiedTerminalContext) : NavigationDiscovery :=
  let found := discover platform
    { executable := rootExecutable
      parentExecutable := none
      terminalExecutable := some terminalExecutable
      metadata := buildVerifiedMetadata terminalExecutable verifiedTerminal }
  ⟨(mapPlatformHost found.1).getD fallbackHost, mapPlatformTier found.2⟩

/-- Up from a process; `rootExecutable` is the first name on the way that is not empty. -/
def detectFrom (verifiedTerminal : Option VerifiedTerminalContext) :
    ℕ → ℕ → String → NavigationDiscovery
  | 0, _, _ => ⟨.unknownHost, .none⟩
  | hops + 1, current, rootExecutable =>
    match table current with
    | none => ⟨.unknownHost, .none⟩
    | some process =>
      let rootExecutable := if rootExecutable.isEmpty then process.name else rootExecutable
      match hostFromProcessName process.name, process.parent with
      | some host, _ =>
        discoverVerifiedProcess platform host rootExecutable process.name verifiedTerminal
      | none, none => ⟨.unknownHost, .none⟩
      | none, some parent => detectFrom verifiedTerminal hops parent rootExecutable

def detectNavigationForRoot (root : ProcessIdentity)
    (verifiedTerminal : Option VerifiedTerminalContext) :
    Except LocatorError NavigationDiscovery :=
  .ok (detectFrom platform table verifiedTerminal maxParentHops root.pid "")

/-! ## Sessions -/

structure ResolvedContext where
  locator : ContextLocator
  host : HostKind
  discoveredTier : ContextOpenTier
  paneVerified : Bool
  deriving DecidableEq

def paneVerifiedForHost (host : HostKind) (terminal : VerifiedTerminalContext) : Bool :=
  match host with
  | .windowsTerminal | .vsCode | .cursor =>
    terminal.terminalSessionId.isSome && terminal.tabId.isSome && terminal.paneId.isSome
  | .terminalApp | .iTerm2 =>
    terminal.paneId.isSome && (terminal.tabId.isSome || terminal.terminalSessionId.isSome)
  | .unknownHost => false

def paneHintForSession (session : AgentSession) : Option String :=
  session.workspaceLabel.bind fun label =>
    let trimmed := RustText.trim label.toList
    if trimmed.isEmpty then none else some (String.ofList (trimmed.take 64))

def resolveSession (session : AgentSession) : Except LocatorError (Option ResolvedContext) :=
  match session.processRoot with
  | none => .ok none
  | some root => do
    let discovery ← detectNavigationForRoot platform table root session.verifiedTerminal
    let locator ← ContextLocator.encode discovery.host (some root) (paneHintForSession session)
      session.verifiedTerminal
    pure (some
      { locator
        host := discovery.host
        discoveredTier := discovery.tier
        paneVerified := paneVerifiedForHost discovery.host locator.verifiedTerminal })

/-! ## When a session can be opened -/

/-- The session is opened : its process and its terminal are in the locator, and the token is
parsed to the locator. -/
def Opens (read : String → Option Json) (session : AgentSession) (root : ProcessIdentity) : Prop :=
  ∃ context, resolveSession platform table session = .ok (some context) ∧
    context.locator.process = some root ∧
    context.locator.verifiedTerminal = session.verifiedTerminal.getD noTerminal ∧
    ContextLocator.parse read context.locator.token = .ok context.locator

/-- What the locator of a session has to hold. -/
def sessionPayload (session : AgentSession) (root : ProcessIdentity) : LocatorPayload :=
  payloadOf (detectFrom platform table session.verifiedTerminal maxParentHops root.pid "").host
    (some root) (paneHintForSession session) (session.verifiedTerminal.getD noTerminal)

/-- A terminal as it is stored. -/
structure Ingested (terminal : VerifiedTerminalContext) : Prop where
  session : Ipc.validateTerminalId terminal.terminalSessionId "terminalSessionId" = .ok ()
  tab : Ipc.validateTerminalId terminal.tabId "tabId" = .ok ()
  pane : Ipc.validateTerminalId terminal.paneId "paneId" = .ok ()
  handle : ∀ n, terminal.windowHandle = some n → 0 < n ∧ n < 2 ^ 64

/-- The process of a session, in the types of its fields. -/
structure RootInRange (root : ProcessIdentity) : Prop where
  pid : root.pid < 2 ^ 32
  startedAtMs : -2 ^ 63 ≤ root.startedAtMs ∧ root.startedAtMs < 2 ^ 63

/-- The hint is in the alphabet, and has no two dots in a row. -/
def HintFits (session : AgentSession) : Prop :=
  ∀ hint, paneHintForSession session = some hint →
    (∀ c ∈ hint.toList, isHint c = true) ∧ ¬ RustText.contains "..".toList hint.toList = true

variable {platform table}

theorem Ingested.fits {terminal : VerifiedTerminalContext} (h : Ingested terminal) :
    TerminalFits terminal := by
  rintro value (hid | hid | hid)
  · have hvalid := h.session
    rw [hid] at hvalid
    exact fits_of_ingest hvalid
  · have hvalid := h.tab
    rw [hid] at hvalid
    exact fits_of_ingest hvalid
  · have hvalid := h.pane
    rw [hid] at hvalid
    exact fits_of_ingest hvalid

variable {session : AgentSession} {root : ProcessIdentity}

/-- A hint has at most 64 characters, so that only the alphabet matters. -/
theorem HintFits.fits (h : HintFits session) {hint : String}
    (hhint : paneHintForSession session = some hint) : Fits maxPaneHintLen isHint hint := by
  obtain ⟨hallowed, hdots⟩ := h hint hhint
  obtain ⟨label, -, hlabel⟩ := Option.bind_eq_some_iff.1 hhint
  dsimp only at hlabel
  split at hlabel
  · cases hlabel
  rename_i hne
  cases hlabel
  rw [String.toList_ofList] at hallowed
  refine ⟨?_, ?_, hdots, by rwa [String.toList_ofList]⟩
  · intro hempty
    have hnil := String.ofList_injective (hempty.trans (by decide : "" = String.ofList []))
    rw [List.take_eq_nil_iff] at hnil
    exact hne (by simpa using hnil)
  · rw [size_of_plain fun c hc => isPlain_of_isHint (hallowed c hc), List.length_take,
      maxPaneHintLen]
    omega

theorem hintFits_of_fits
    (h : ∀ hint, paneHintForSession session = some hint → Fits maxPaneHintLen isHint hint) :
    HintFits session :=
  fun hint hhint => ⟨(h hint hhint).allowed, (h hint hhint).noDots⟩

theorem inRange_sessionPayload (hroot : RootInRange root)
    (hterminal : ∀ terminal, session.verifiedTerminal = some terminal → Ingested terminal) :
    (sessionPayload platform table session root).InRange := by
  refine ⟨show payloadVersion < 2 ^ 8 by decide, ?_, ?_, ?_⟩
  · rintro n ⟨⟩
    exact hroot.pid
  · rintro n ⟨⟩
    exact hroot.startedAtMs
  · intro n hn
    cases hstored : session.verifiedTerminal with
    | none =>
      rw [sessionPayload, payloadOf, hstored] at hn
      cases hn
    | some terminal =>
      rw [sessionPayload, payloadOf, hstored] at hn
      exact ((hterminal terminal hstored).handle n hn).2

/-- A session with a process is resolved if its locator can be made. -/
theorem resolveSession_eq_ok (hsession : session.processRoot = some root)
    {context : ResolvedContext} :
    let discovery := detectFrom platform table session.verifiedTerminal maxParentHops root.pid ""
    resolveSession platform table session = .ok (some context) ↔
      ∃ locator, ContextLocator.encode discovery.host (some root) (paneHintForSession session)
          session.verifiedTerminal = .ok locator ∧
        context = ⟨locator, discovery.host, discovery.tier,
          paneVerifiedForHost discovery.host locator.verifiedTerminal⟩ := by
  intro discovery
  unfold resolveSession
  rw [hsession]
  dsimp only
  rw [bind_eq_ok]
  constructor
  · rintro ⟨found, hfound, h⟩
    cases hfound
    obtain ⟨locator, hencode, h⟩ := bind_eq_ok.1 h
    exact ⟨locator, hencode, (Option.some.inj (Except.ok.inj h)).symm⟩
  · rintro ⟨locator, hencode, rfl⟩
    exact ⟨_, rfl, bind_eq_ok.2 ⟨locator, hencode, rfl⟩⟩

/-- A session is opened exactly if its hint is in the alphabet of hints and the text of its
payload has room in a token. -/
theorem resolve_opens_iff {read : String → Option Json} {session : AgentSession}
    {root : ProcessIdentity} (hsession : session.processRoot = some root)
    (hroot : RootInRange root)
    (hterminal : ∀ terminal, session.verifiedTerminal = some terminal → Ingested terminal)
    (hread : read (sessionPayload platform table session root).toJson.text =
      some (sessionPayload platform table session root).toJson) :
    Opens platform table read session root ↔
      HintFits session ∧
        (sessionPayload platform table session root).textSize ≤ maxTextSize := by
  have hfits : TerminalFits (session.verifiedTerminal.getD noTerminal) := by
    cases hstored : session.verifiedTerminal with
    | none => rintro value (h | h | h) <;> cases h
    | some terminal => exact (hterminal terminal hstored).fits
  constructor
  · rintro ⟨context, hok, -⟩
    obtain ⟨locator, hencode, -⟩ := (resolveSession_eq_ok hsession).1 hok
    obtain ⟨hhint, -, hsize, -⟩ := encode_eq_ok.1 hencode
    exact ⟨hintFits_of_fits hhint, hsize⟩
  · rintro ⟨hhint, hsize⟩
    have hencode := encode_eq_ok.2 ⟨fun _ h => hhint.fits h, hfits, hsize, rfl⟩
    refine ⟨_, (resolveSession_eq_ok hsession).2 ⟨_, hencode, rfl⟩, rfl, rfl, ?_⟩
    exact parse_token hencode (inRange_sessionPayload hroot hterminal) hread

end Detection

/-! ## Sessions that are opened and that are not -/

def workspaceSession (workspaceLabel : String) (terminal : VerifiedTerminalContext) :
    AgentSession where
  id := "s-1"
  source := .generic
  externalSessionId := "ext-1"
  label := "test"
  workspaceLabel := some workspaceLabel
  status := .running
  attention := .none
  startedAtMs := 1
  lastEventAtMs := 2
  endedAtMs := none
  processRoot := some ⟨4242, 1700000000000⟩
  verifiedTerminal := some terminal
  latestMetric := none

/-- An agent in a shell in a terminal window. -/
def terminalTable : ProcessTable := fun pid =>
  if pid = 4242 then some ⟨"claude", some 4000⟩
  else if pid = 4000 then some ⟨"zsh", some 300⟩
  else if pid = 300 then some ⟨"Terminal", some 1⟩
  else none

/-- Reads the text of one payload. -/
def readPayload (payload : LocatorPayload) (text : String) : Option Json :=
  if text = payload.toJson.text then some payload.toJson else none

theorem resolve_opens_iff_tab :
    let terminal : VerifiedTerminalContext := ⟨some "0", some "1", some "0", none⟩
    let session := workspaceSession "workspace-a" terminal
    let payload := sessionPayload .macOs terminalTable session ⟨4242, 1700000000000⟩
    payload.host = .terminalApp ∧
      Opens .macOs terminalTable (readPayload payload) session ⟨4242, 1700000000000⟩ := by
  intro terminal session payload
  have hterminal : ∀ t, session.verifiedTerminal = some t → Ingested t := by
    rintro t ⟨⟩
    exact ⟨by decide, by decide, by decide, fun _ h => by cases h⟩
  refine ⟨by decide,
    (resolve_opens_iff rfl ⟨by decide, by decide⟩ hterminal (if_pos rfl)).2 ⟨?_, ?_⟩⟩
  · intro hint hhint
    have hsame : paneHintForSession session = some "workspace-a" := by decide
    obtain rfl := Option.some.inj (hsame.symm.trans hhint)
    have hlabel : "workspace-a".toList.all isHint = true := by decide
    exact ⟨List.all_eq_true.1 hlabel, by decide⟩
  · decide

/-- A label with an accent is accepted for a session, and keeps it from being opened. -/
theorem accented_label_is_not_opened :
    let session := workspaceSession "café" noTerminal
    validateWorkspaceLabel "café" = .ok () ∧ Ingested noTerminal ∧
      ∀ platform table read,
        resolveSession platform table session = .error .invalidPaneHint ∧
        ¬ Opens platform table read session ⟨4242, 1700000000000⟩ := by
  intro session
  have hhint : paneHintForSession session = some "café" := by decide
  have hinvalid : validatePaneHint "café" = .error .invalidPaneHint := by decide
  refine ⟨by decide, ⟨rfl, rfl, rfl, fun _ h => by cases h⟩, fun platform table read => ?_⟩
  have hencode : ∀ host process terminal,
      ContextLocator.encode host process (some "café") terminal = .error .invalidPaneHint := by
    intro host process terminal
    simp only [ContextLocator.encode, Option.forM, hinvalid]
    rfl
  have hresolve : resolveSession platform table session = .error .invalidPaneHint := by
    have hroot : session.processRoot = some ⟨4242, 1700000000000⟩ := rfl
    simp only [resolveSession, hroot, hhint, hencode, detectNavigationForRoot]
    rfl
  refine ⟨hresolve, ?_⟩
  rintro ⟨context, hok, -⟩
  rw [hresolve] at hok
  cases hok

end Context

end LlmNotch
