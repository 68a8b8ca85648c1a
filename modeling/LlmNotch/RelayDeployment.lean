import LlmNotch.RemoteRegistry
import LlmNotch.ShellWords

/-!
# Deploying the relay

A deployment plan is a list of steps (`DeploymentPlan.newWithRuntimeDir`), and the executor makes
one call of `ssh` or `scp` for each of them : a script for the remote shell, or an upload. What the
remote machine answers may depend on all calls before (`respond`). The relay is started later by a
command line of `ssh` (`remoteCommand`).

The remote directory starts with `~/`. In the scripts it stands in single quotes, where the tilde
is a name; `scp` and the command line resolve it to the home directory. `files_differ` : the
directory that is created is never the one that is uploaded to, the file that is hashed and moved is
never the one that was uploaded, and the file that is activated is never the one that is started.
-/

namespace LlmNotch

namespace Relay

open Json (size)
open Shell (Path names denote bare literal)

/-! ## Plans -/

inductive RemoteOs where
  | linux | macos | windows
  deriving DecidableEq

inductive RemoteArchitecture where
  | x86_64 | aarch64
  deriving DecidableEq

structure RemoteTarget where
  os : RemoteOs
  architecture : RemoteArchitecture
  deriving DecidableEq

def maxArtifactBytes : ℕ := 64 * 1024 * 1024

/-- The relay binary that is uploaded. -/
structure RelayArtifact where
  localPath : String
  target : RemoteTarget
  byteLen : ℕ
  sha256 : String
  deriving DecidableEq

/-- A step of a deployment. -/
inductive DeploymentStep where
  | probeTarget
  | createPrivateDirectory (remoteDirectory : String)
  | uploadTemporary (remotePath : String)
  | verifySha256 (expectedSha256 : String)
  | activateAtomically (remotePath : String)
  | startStdioRelay (remotePath eventSpoolDir : String)
  deriving DecidableEq

/-- The steps for one host. -/
structure DeploymentPlan where
  hostId : String
  artifact : RelayArtifact
  steps : List DeploymentStep
  deriving DecidableEq

/-- Why there is no plan. -/
inductive DeploymentError where
  | invalidSize | invalidHash | invalidRemoteDirectory | invalidHost
  deriving DecidableEq

/-- The size and the form of the hash are checked, not the file. -/
def RelayArtifact.validate (artifact : RelayArtifact) : Except DeploymentError Unit :=
  if artifact.byteLen = 0 ∨ maxArtifactBytes < artifact.byteLen then .error .invalidSize
  else if size artifact.sha256 ≠ 64 ||
      !artifact.sha256.toList.all fun c => isHexDigit c && !('A' ≤ c && c ≤ 'Z') then
    .error .invalidHash
  else .ok ()

/-- The characters of a private path. -/
def isPathChar (c : Char) : Bool :=
  isAsciiAlphanumeric c || c ∈ ['~', '/', '.', '-', '_']

/-- `valid_remote_directory` and `valid_private_remote_path`, which differ in the length. -/
def validPrivatePath (maxLen : ℕ) (value : String) : Bool :=
  "~/.".toList.isPrefixOf value.toList && size value ≤ maxLen && value.toList.all isPathChar &&
    !RustText.contains "..".toList value.toList

def validRemoteDirectory (value : String) : Bool :=
  validPrivatePath 128 value

/-- The plan of a deployment, if host, artifact and directories are valid. -/
def DeploymentPlan.newWithRuntimeDir (isAbsolute : String → Bool) (host : RemoteHostConfig)
    (artifact : RelayArtifact) (remoteDirectory remoteRuntimeDirectory : String) :
    Except DeploymentError DeploymentPlan :=
  match host.validate isAbsolute with
  | .error _ => .error .invalidHost
  | .ok _ => match artifact.validate with
    | .error error => .error error
    | .ok _ =>
      if !validRemoteDirectory remoteDirectory then .error .invalidRemoteDirectory
      else if !validRemoteDirectory remoteRuntimeDirectory then .error .invalidRemoteDirectory
      else
        let temporary := remoteDirectory ++ "/llm-notch-relay.tmp"
        let active := remoteDirectory ++ "/llm-notch-relay"
        .ok
          { hostId := host.id
            artifact := artifact
            steps := [.probeTarget, .createPrivateDirectory remoteDirectory,
              .uploadTemporary temporary, .verifySha256 artifact.sha256,
              .activateAtomically active, .startStdioRelay active remoteRuntimeDirectory] }

/-! ## The executor -/

/-- How a call of ssh or scp fails. -/
inductive DeployTransportError where
  | sshUnavailable
  | scpUnavailable
  | hostVerificationFailed
  | authenticationFailed
  | process (detail : String)
  | protocol (detail : String)
  deriving DecidableEq

/-- Why a deployment stops. -/
inductive DeployExecError where
  | stepFailed (step : DeploymentStep) (source : DeployTransportError)
  | hashMismatch (expected actual : String)
  | targetMismatch (probed artifact : RemoteTarget)
  | missingRelayPath
  deriving DecidableEq

/-- A call of `ssh` with a script, or of `scp`. -/
inductive Call where
  | runRemote (script : String)
  | uploadFile (localPath remotePath : String)
  deriving DecidableEq

/-- The calls so far, and the variables of `execute`. -/
structure Execution where
  calls : List Call
  completed : List DeploymentStep
  probed : Option RemoteTarget
  temporary : Option String

def parseOs (os : String) : Except DeployTransportError RemoteOs :=
  if os = "Linux" then .ok .linux
  else if os = "Darwin" then .ok .macos
  else .error (.protocol ("unsupported remote OS: " ++ os))

def parseArchitecture (architecture : String) : Except DeployTransportError RemoteArchitecture :=
  if architecture ∈ ["x86_64", "amd64"] then .ok .x86_64
  else if architecture ∈ ["aarch64", "arm64"] then .ok .aarch64
  else .error (.protocol ("unsupported remote architecture: " ++ architecture))

/-- The first two lines name the system and the architecture. -/
def parseProbeOutput (output : String) : Except DeployTransportError RemoteTarget :=
  match ((output.toList.splitOn '\n').map RustText.trim).filter (· ≠ []) with
  | [] => .error (.protocol "probe output missing OS")
  | [_] => .error (.protocol "probe output missing architecture")
  | os :: architecture :: _ => do
    let os ← parseOs (String.ofList os)
    let architecture ← parseArchitecture (String.ofList architecture)
    return ⟨os, architecture⟩

def probeScript : String := "uname -s && uname -m"

def mkdirScript (directory : String) : String :=
  "mkdir -p '" ++ directory ++ "'"

def sha256Script (path : String) : String :=
  "if command -v sha256sum >/dev/null 2>&1; then sha256sum '" ++ path ++
    "'; elif command -v shasum >/dev/null 2>&1; then shasum -a 256 '" ++ path ++
    "'; else exit 127; fi | awk '\x7bprint $1\x7d'"

/-- Move the upload into place and make it executable. -/
def activateScript (temporary active : String) : String :=
  "test -f '" ++ temporary ++ "' && mv '" ++ temporary ++ "' '" ++ active ++ "' && chmod +x '" ++
    active ++ "'"

/-- What `remote_sha256` takes from the output. -/
def parseSha256 (output : String) : Except DeployTransportError String :=
  let hash := (RustText.trim output.toList).map RustText.toAsciiLowercase
  if size (String.ofList hash) ≠ 64 || !hash.all isHexDigit then
    .error (.protocol ("remote hash output was invalid: " ++ output))
  else .ok (String.ofList hash)

namespace Execution

def initial : Execution :=
  ⟨[], [], none, none⟩

/-- Make a call. -/
def call (respond : List Call → Call → Except DeployTransportError String) (e : Execution)
    (call : Call) : Except DeployTransportError String × Execution :=
  (respond e.calls call, { e with calls := e.calls ++ [call] })

def complete (e : Execution) (step : DeploymentStep) : Execution :=
  { e with completed := e.completed ++ [step] }

/-- One step, unless it is the start of the relay. -/
def step (respond : List Call → Call → Except DeployTransportError String) (plan : DeploymentPlan)
    (e : Execution) (step : DeploymentStep) : Except DeployExecError Unit × Execution :=
  match step with
  | .probeTarget => match e.call respond (.runRemote probeScript) with
    | (.error source, e) => (.error (.stepFailed step source), e)
    | (.ok output, e) => match parseProbeOutput output with
      | .error source => (.error (.stepFailed step source), e)
      | .ok target =>
        if target ≠ plan.artifact.target then
          (.error (.targetMismatch target plan.artifact.target), e)
        else (.ok (), { e with probed := some target }.complete step)
  | .createPrivateDirectory directory =>
    match e.call respond (.runRemote (mkdirScript directory)) with
    | (.error source, e) => (.error (.stepFailed step source), e)
    | (.ok _, e) => (.ok (), e.complete step)
  | .uploadTemporary path =>
    match e.call respond (.uploadFile plan.artifact.localPath path) with
    | (.error source, e) => (.error (.stepFailed step source), e)
    | (.ok _, e) => (.ok (), { e with temporary := some path }.complete step)
  | .verifySha256 expected => match e.temporary with
    | none => (.error .missingRelayPath, e)
    | some path => match e.call respond (.runRemote (sha256Script path)) with
      | (.error source, e) => (.error (.stepFailed step source), e)
      | (.ok output, e) => match parseSha256 output with
        | .error source => (.error (.stepFailed step source), e)
        | .ok actual =>
          if actual ≠ expected then (.error (.hashMismatch expected actual), e)
          else (.ok (), e.complete step)
  | .activateAtomically active => match e.temporary with
    | none => (.error .missingRelayPath, e)
    | some path => match e.call respond (.runRemote (activateScript path active)) with
      | (.error source, e) => (.error (.stepFailed step source), e)
      | (.ok _, e) => (.ok (), e.complete step)
  | .startStdioRelay .. => (.ok (), e)

/-- The loop ends at the start of the relay. -/
def steps (respond : List Call → Call → Except DeployTransportError String)
    (plan : DeploymentPlan) (e : Execution) :
    List DeploymentStep → Except DeployExecError Unit × Execution
  | [] => (.ok (), e)
  | .startStdioRelay .. :: _ => (.ok (), e)
  | step :: rest => match e.step respond plan step with
    | (.error error, e) => (.error error, e)
    | (.ok _, e) => e.steps respond plan rest

end Execution

/-- Run the steps of a plan up to the first error. -/
def execute (respond : List Call → Call → Except DeployTransportError String)
    (plan : DeploymentPlan) : Except DeployExecError Unit × Execution :=
  Execution.initial.steps respond plan plan.steps

/-! ## The start of the relay -/

def defaultRemoteBinDirectory : String := "~/.llm-notch/bin"

def defaultRemoteRelayPath : String := "~/.llm-notch/bin/llm-notch-relay"

/-- The remote command of `OpenSshTransport::connect` : `ssh` puts its last arguments together. -/
def remoteCommand (remoteRelayPath : String) (host : RemoteHostConfig) (resume : ℕ)
    (eventSpoolDir : Option String) : String :=
  " ".intercalate ([remoteRelayPath, "--host-id", host.id, "--resume", resume.repr] ++
    (eventSpoolDir.map fun dir => ["--event-spool", dir]).getD [])

/-! ## The files -/

/-- The directories a script creates. -/
def createdBy (home : Path) (script : String) : List Path :=
  (Shell.argumentsOf "mkdir" script).filterMap fun args => args.getLast?.map (Shell.denote home)

/-- `scp` resolves a path as a word without quotes. -/
def uploadedTo (home : Path) (remotePath : String) : Path :=
  Shell.denote home (Shell.bare remotePath.toList)

/-- The file a script hashes, by the program that is installed. -/
def hashedBy (home : Path) (script : String) : List Path :=
  (Shell.argumentsOf "sha256sum" script ++ Shell.argumentsOf "shasum" script).filterMap
    fun args => args.getLast?.map (Shell.denote home)

/-- The files a script moves, and where to. -/
def movedBy (home : Path) (script : String) : List (Path × Path) :=
  (Shell.argumentsOf "mv" script).filterMap fun args => match args with
    | [source, destination] => some (Shell.denote home source, Shell.denote home destination)
    | _ => none

/-- The program of a command line. -/
def startedBy (home : Path) (command : String) : Option Path :=
  match Shell.lex command with
  | .word w :: _ => some (Shell.denote home w)
  | _ => none

section Scripts

open Shell

variable {directory temporary active : String}

theorem lex_mkdirScript (h : '\'' ∉ directory.toList) :
    lex (mkdirScript directory) =
      [.word (fixed "mkdir"), .word (fixed "-p"), .word (literal directory.toList)] := by
  have hfirst : Lexer.Opens "mkdir -p '".toList [.word (fixed "mkdir"), .word (fixed "-p")] := by
    decide
  have hparts : ∀ first last : String, (first ++ directory ++ last).toList =
      first.toList ++ (directory.toList ++ last.toList) := by
    intro first last
    rw [String.toList_append, String.toList_append, List.append_assoc]
  exact lex_words [] (hparts "mkdir -p '" "'") hfirst (by simp) h Lexer.closes_end

/-- The words of `activate_relay` between the paths. -/
theorem separates_activate :
    Lexer.Separates "' && mv '".toList [.op '&', .op '&', .word (fixed "mv")] ∧
    Lexer.Separates "' '".toList [] ∧
    Lexer.Separates "' && chmod +x '".toList
      [.op '&', .op '&', .word (fixed "chmod"), .word (fixed "+x")] := by
  have hmv : Lexer.Opens "&& mv '".toList [.op '&', .op '&', .word (fixed "mv")] := by
    decide
  have hnext : Lexer.Opens "'".toList [] := by
    decide
  have hchmod : Lexer.Opens "&& chmod +x '".toList
      [.op '&', .op '&', .word (fixed "chmod"), .word (fixed "+x")] := by
    decide
  exact ⟨Lexer.separates_blank hmv, Lexer.separates_blank hnext, Lexer.separates_blank hchmod⟩

theorem lex_activateScript (htemporary : '\'' ∉ temporary.toList)
    (hactive : '\'' ∉ active.toList) :
    lex (activateScript temporary active) =
      [.word (fixed "test"), .word (fixed "-f"), .word (literal temporary.toList),
        .op '&', .op '&', .word (fixed "mv"), .word (literal temporary.toList),
        .word (literal active.toList), .op '&', .op '&', .word (fixed "chmod"),
        .word (fixed "+x"), .word (literal active.toList)] := by
  have hfirst : Lexer.Opens "test -f '".toList [.word (fixed "test"), .word (fixed "-f")] := by
    decide
  have hparts : ∀ first second third fourth last : String,
      (first ++ temporary ++ second ++ temporary ++ third ++ active ++ fourth ++ active ++
        last).toList = first.toList ++ (([(temporary.toList, second.toList, [.op '&', .op '&',
          .word (fixed "mv")]), (temporary.toList, third.toList, []), (active.toList, fourth.toList,
          [.op '&', .op '&', .word (fixed "chmod"), .word (fixed "+x")])] :
          List (List Char × List Char × List Token)).flatMap (fun e => e.1 ++ e.2.1) ++
          (active.toList ++ last.toList)) := by
    intro first second third fourth last
    simp only [String.toList_append, List.append_assoc, List.flatMap_cons, List.flatMap_nil,
      List.nil_append]
  obtain ⟨hmv, hnext, hchmod⟩ := separates_activate
  refine (lex_words _ (hparts "test -f '" "' && mv '" "' '" "' && chmod +x '" "'") hfirst ?_
    hactive Lexer.closes_end).trans rfl
  intro e he
  simp only [List.mem_cons, List.not_mem_nil, or_false] at he
  rcases he with rfl | rfl | rfl
  · exact ⟨htemporary, hmv⟩
  · exact ⟨htemporary, hnext⟩
  · exact ⟨hactive, hchmod⟩

/-- The words of `remote_sha256` before the first path, between the two, and after the second. -/
def sha256Tokens : List Token × List Token × List Token :=
  ([.word (fixed "if"), .word (fixed "command"), .word (fixed "-v"), .word (fixed "sha256sum"),
      .op '>', .word (fixed "/dev/null"), .word (fixed "2"), .op '>', .op '&', .word (fixed "1"),
      .op ';', .word (fixed "then"), .word (fixed "sha256sum")],
    [.op ';', .word (fixed "elif"), .word (fixed "command"), .word (fixed "-v"),
      .word (fixed "shasum"), .op '>', .word (fixed "/dev/null"), .word (fixed "2"), .op '>',
      .op '&', .word (fixed "1"), .op ';', .word (fixed "then"), .word (fixed "shasum"),
      .word (fixed "-a"), .word (fixed "256")],
    [.op ';', .word (fixed "else"), .word (fixed "exit"), .word (fixed "127"), .op ';',
      .word (fixed "fi"), .op '|', .word (fixed "awk"),
      .word (literal "\x7bprint $1\x7d".toList)])

theorem separates_sha256 : Lexer.Separates
    "'; elif command -v shasum >/dev/null 2>&1; then shasum -a 256 '".toList sha256Tokens.2.1 := by
  have htext : "'; elif command -v shasum >/dev/null 2>&1; then shasum -a 256 '".toList =
      '\'' :: ';' :: " elif command -v shasum >/dev/null 2>&1; then shasum -a 256 '".toList := by
    decide
  have hopens : Lexer.Opens " elif command -v shasum >/dev/null 2>&1; then shasum -a 256 '".toList
      sha256Tokens.2.1.tail := by
    decide +kernel
  rw [htext]
  exact Lexer.separates_op rfl hopens

theorem closes_sha256 : Lexer.Closes "'; else exit 127; fi | awk '\x7bprint $1\x7d'".toList
    sha256Tokens.2.2 := by
  have htext : "'; else exit 127; fi | awk '\x7bprint $1\x7d'".toList =
      '\'' :: ';' :: " else exit 127; fi | awk '\x7bprint $1\x7d'".toList := by
    decide
  have htokens : (Lexer.start.run
      " else exit 127; fi | awk '\x7bprint $1\x7d'".toList).flush.tokens =
      sha256Tokens.2.2.tail := by
    decide
  rw [htext]
  exact Lexer.closes_op rfl htokens

theorem lex_sha256Script (h : '\'' ∉ temporary.toList) :
    lex (sha256Script temporary) = sha256Tokens.1 ++ .word (literal temporary.toList) ::
      (sha256Tokens.2.1 ++ .word (literal temporary.toList) :: sha256Tokens.2.2) := by
  have hfirst : Lexer.Opens "if command -v sha256sum >/dev/null 2>&1; then sha256sum '".toList
      sha256Tokens.1 := by
    decide +kernel
  have hparts : ∀ (first middle last : String),
      (first ++ temporary ++ middle ++ temporary ++ last).toList = first.toList ++
        (([(temporary.toList, middle.toList, sha256Tokens.2.1)] : List (List Char × List Char ×
          List Token)).flatMap (fun e => e.1 ++ e.2.1) ++ (temporary.toList ++ last.toList)) := by
    intro first middle last
    simp only [String.toList_append, List.append_assoc, List.flatMap_cons, List.flatMap_nil,
      List.nil_append]
  have hlex := lex_words _ (hparts "if command -v sha256sum >/dev/null 2>&1; then sha256sum '"
    "'; elif command -v shasum >/dev/null 2>&1; then shasum -a 256 '"
    "'; else exit 127; fi | awk '\x7bprint $1\x7d'") hfirst (fun e he => by
      rw [List.mem_singleton] at he
      subst he
      exact ⟨h, separates_sha256⟩) h closes_sha256
  rw [List.flatMap_singleton, List.append_assoc] at hlex
  exact hlex

/-! ## The arguments of the scripts -/

theorem createdBy_mkdirScript (home : Path) (h : '\'' ∉ directory.toList) :
    createdBy home (mkdirScript directory) = [denote home (literal directory.toList)] := by
  rw [createdBy, argumentsOf, lex_mkdirScript h]
  simp [simpleCommands, argumentsIn_fixed]

theorem hashedBy_sha256Script (home : Path) (h : '\'' ∉ temporary.toList) :
    hashedBy home (sha256Script temporary) =
      [denote home (literal temporary.toList), denote home (literal temporary.toList)] := by
  rw [hashedBy, argumentsOf, argumentsOf, lex_sha256Script h]
  simp [sha256Tokens, simpleCommands, List.filterMap_cons, argumentsIn_fixed]

theorem movedBy_activateScript (home : Path) (htemporary : '\'' ∉ temporary.toList)
    (hactive : '\'' ∉ active.toList) :
    movedBy home (activateScript temporary active) =
      [(denote home (literal temporary.toList), denote home (literal active.toList))] := by
  rw [movedBy, argumentsOf, lex_activateScript htemporary hactive]
  simp [simpleCommands, List.filterMap_cons, argumentsIn_fixed]

/-- The program of the command line is its first word, when that needs no quotes. -/
theorem startedBy_remoteCommand (home : Path) {path : String} (hplain : Lexer.Plain path.toList)
    (hne : path.toList ≠ []) (host : RemoteHostConfig) (resume : ℕ)
    (eventSpoolDir : Option String) :
    startedBy home (remoteCommand path host resume eventSpoolDir) =
      some (denote home (bare path.toList)) := by
  obtain ⟨rest, hrest⟩ : ∃ rest : List Char,
      (remoteCommand path host resume eventSpoolDir).toList = path.toList ++ ' ' :: rest := by
    refine ⟨(" ".intercalate (["--host-id", host.id, "--resume", resume.repr] ++
      (eventSpoolDir.map fun dir => ["--event-spool", dir]).getD [])).toList, ?_⟩
    rw [remoteCommand, List.cons_append, List.cons_append, String.intercalate_cons_cons,
      String.toList_append, String.toList_append, List.append_assoc]
    rfl
  rw [startedBy, lex_plain hrest hplain hne]

end Scripts

/-! ## Private paths -/

section Paths

open Shell

variable {directory : String} {rest : List Char}

theorem plain_of_isPathChar {text : List Char} (h : text.all isPathChar = true) :
    Lexer.Plain text := by
  intro c hc
  have hpath : isPathChar c = true := List.all_eq_true.1 h c hc
  refine ⟨?_, ?_, ?_⟩
  · rintro rfl
    cases hpath
  · by_contra hblank
    simp only [isBlank, Bool.or_eq_true, decide_eq_true_eq, Bool.not_eq_false] at hblank
    rcases hblank with rfl | rfl <;> cases hpath
  · by_contra hop
    simp only [isOperator, Bool.not_eq_false, List.mem_cons, List.not_mem_nil, or_false,
      decide_eq_true_eq] at hop
    rcases hop with rfl | rfl | rfl | rfl | rfl | rfl | rfl | rfl <;> cases hpath

theorem quote_notMem_of_isPathChar {text : List Char} (h : text.all isPathChar = true) :
    '\'' ∉ text :=
  fun hmem => (plain_of_isPathChar h _ hmem).1 rfl

theorem isPathChar_child (h : directory.toList.all isPathChar = true) (file : String)
    (hfile : file.toList.all isPathChar = true) :
    (directory ++ file).toList.all isPathChar = true := by
  rw [String.toList_append, List.all_append, h, hfile]
  rfl

/-- A private path is below the home directory, and needs no quotes. -/
theorem of_validPrivatePath {maxLen : ℕ} {value : String}
    (h : validPrivatePath maxLen value = true) :
    (∃ rest, value.toList = '~' :: '/' :: rest) ∧ value.toList.all isPathChar = true := by
  simp only [validPrivatePath, Bool.and_eq_true] at h
  obtain ⟨⟨⟨hpath, -⟩, hchars⟩, -⟩ := h
  obtain ⟨rest, hrest⟩ := List.isPrefixOf_iff_prefix.1 hpath
  exact ⟨⟨'.' :: rest, hrest.symm⟩, hchars⟩

theorem toList_child (hdir : directory.toList = '~' :: '/' :: rest) (file : String) :
    (directory ++ ("/" ++ file)).toList = '~' :: '/' :: (rest ++ '/' :: file.toList) := by
  rw [String.toList_append, String.toList_append, hdir]
  rfl

/-- A file of a directory, in quotes. -/
theorem denote_literal_child (home : Path) (hdir : directory.toList = '~' :: '/' :: rest)
    {file : String} (hfile : names file.toList = [file.toList]) :
    denote home (literal (directory ++ ("/" ++ file)).toList) =
      home ++ ['~'] :: (names rest ++ [file.toList]) := by
  rw [toList_child hdir, denote_literal, names_append, hfile]

/-- A file of a directory, without quotes. -/
theorem denote_bare_child (home : Path) (hdir : directory.toList = '~' :: '/' :: rest)
    {file : String} (hfile : names file.toList = [file.toList]) :
    denote home (bare (directory ++ ("/" ++ file)).toList) =
      home ++ (names rest ++ [file.toList]) := by
  rw [toList_child hdir, denote_bare, names_append, hfile]

/-- A file with a quoted tilde is one level deeper. -/
theorem literal_child_ne_bare_child (home path : Path) (file : List Char) :
    home ++ ['~'] :: (path ++ [file]) ≠ home ++ (path ++ [file]) := by
  intro heq
  have hlength := congrArg List.length heq
  simp at hlength

/-- The default path starts with another name than a tilde. -/
theorem literal_child_ne_default (home path : Path) :
    home ++ ['~'] :: path ≠ denote home (bare defaultRemoteRelayPath.toList) := by
  have htext : defaultRemoteRelayPath.toList =
      '~' :: '/' :: (".llm-notch".toList ++ '/' :: "bin/llm-notch-relay".toList) := by
    decide
  have hname : names ".llm-notch".toList = [".llm-notch".toList] := by
    decide
  rw [htext, denote_bare, names_append, hname]
  intro heq
  have hhead := (List.cons.inj (List.append_cancel_left heq)).1
  revert hhead
  decide

/-- The directory with a quoted tilde is not above a file of the directory. -/
theorem not_prefix_child (home path : Path) {file : List Char} (hfile : file ≠ ['~']) :
    ¬ home ++ ['~'] :: path <+: home ++ (path ++ [file]) := by
  intro hprefix
  have hlength : (['~'] :: path).length = (path ++ [file]).length := by
    simp
  have heq : ['~'] :: path = path ++ [file] :=
    ((List.prefix_append_right_inj home).1 hprefix).eq_of_length hlength
  -- all names of the path would be a tilde, and then the file too
  have hall : ∀ other : Path, ['~'] :: other = other ++ [file] → file = ['~'] := by
    intro other
    induction other with
    | nil => exact fun h => (List.cons.inj h).1.symm
    | cons name other ih =>
      intro h
      obtain ⟨rfl, htail⟩ := List.cons.inj h
      exact ih htail
  exact hfile (hall path heq)

end Paths

/-! ## The calls of a deployment -/

section Calls

variable {isAbsolute : String → Bool} {host : RemoteHostConfig} {artifact : RelayArtifact}
  {directory runtimeDirectory : String} {plan : DeploymentPlan}

def temporaryPath (directory : String) : String :=
  directory ++ "/llm-notch-relay.tmp"

def activePath (directory : String) : String :=
  directory ++ "/llm-notch-relay"

theorem temporaryPath_eq (directory : String) :
    temporaryPath directory = directory ++ ("/" ++ "llm-notch-relay.tmp") :=
  congrArg (directory ++ ·) (by decide)

theorem activePath_eq (directory : String) :
    activePath directory = directory ++ ("/" ++ "llm-notch-relay") :=
  congrArg (directory ++ ·) (by decide)

/-- What an accepted plan is. -/
theorem plan_of_accepted (h : DeploymentPlan.newWithRuntimeDir isAbsolute host artifact directory
    runtimeDirectory = .ok plan) :
    validRemoteDirectory directory = true ∧
    plan = ⟨host.id, artifact, [.probeTarget, .createPrivateDirectory directory,
      .uploadTemporary (temporaryPath directory), .verifySha256 artifact.sha256,
      .activateAtomically (activePath directory),
      .startStdioRelay (activePath directory) runtimeDirectory]⟩ := by
  simp only [DeploymentPlan.newWithRuntimeDir] at h
  split at h
  · cases h
  · split at h
    · cases h
    · split_ifs at h with hdir hruntime
      · cases h
        exact ⟨by simpa using hdir, rfl⟩

/-- The call of a step, for the upload before it. -/
def callOf (plan : DeploymentPlan) (temporary : Option String) : DeploymentStep → Option Call
  | .probeTarget => some (.runRemote probeScript)
  | .createPrivateDirectory directory => some (.runRemote (mkdirScript directory))
  | .uploadTemporary path => some (.uploadFile plan.artifact.localPath path)
  | .verifySha256 _ => temporary.map fun path => .runRemote (sha256Script path)
  | .activateAtomically active => temporary.map fun path => .runRemote (activateScript path active)
  | .startStdioRelay .. => none

/-- The last upload after a step. -/
def temporaryAfter (temporary : Option String) : DeploymentStep → Option String
  | .uploadTemporary path => some path
  | _ => temporary

/-- The calls of the steps, as long as they succeed. -/
def plannedCalls (plan : DeploymentPlan) (temporary : Option String) :
    List DeploymentStep → List Call
  | [] => []
  | step :: rest => match callOf plan temporary step with
    | none => []
    | some call => call :: plannedCalls plan (temporaryAfter temporary step) rest

variable (respond : List Call → Call → Except DeployTransportError String)

/-- What a step can do. -/
theorem step_cases (plan : DeploymentPlan) (e : Execution) (step : DeploymentStep) :
    (∃ error, (e.step respond plan step).1 = .error error ∧
      (e.step respond plan step).2.calls <+: e.calls ++ (callOf plan e.temporary step).toList) ∨
    ((e.step respond plan step).1 = .ok () ∧
      (e.step respond plan step).2.calls = e.calls ++ (callOf plan e.temporary step).toList ∧
      (e.step respond plan step).2.temporary = temporaryAfter e.temporary step ∧
      (callOf plan e.temporary step = none → ∃ path dir, step = .startStdioRelay path dir)) := by
  cases step with
  | probeTarget =>
    simp only [Execution.step, Execution.call]
    cases respond e.calls (.runRemote probeScript) with
    | error source => exact .inl ⟨_, rfl, List.prefix_rfl⟩
    | ok output =>
      dsimp only
      cases parseProbeOutput output with
      | error source => exact .inl ⟨_, rfl, List.prefix_rfl⟩
      | ok target =>
        dsimp only
        split_ifs with htarget
        · exact .inl ⟨_, rfl, List.prefix_rfl⟩
        · exact .inr ⟨rfl, rfl, rfl, fun hnone => by cases hnone⟩
  | createPrivateDirectory directory =>
    simp only [Execution.step, Execution.call]
    cases respond e.calls (.runRemote (mkdirScript directory)) with
    | error source => exact .inl ⟨_, rfl, List.prefix_rfl⟩
    | ok output => exact .inr ⟨rfl, rfl, rfl, fun hnone => by cases hnone⟩
  | uploadTemporary path =>
    simp only [Execution.step, Execution.call]
    cases respond e.calls (.uploadFile plan.artifact.localPath path) with
    | error source => exact .inl ⟨_, rfl, List.prefix_rfl⟩
    | ok output => exact .inr ⟨rfl, rfl, rfl, fun hnone => by cases hnone⟩
  | verifySha256 expected =>
    simp only [Execution.step, Execution.call, callOf]
    cases e.temporary with
    | none => exact .inl ⟨_, rfl, List.prefix_append _ _⟩
    | some path =>
      dsimp only
      cases respond e.calls (.runRemote (sha256Script path)) with
      | error source => exact .inl ⟨_, rfl, List.prefix_rfl⟩
      | ok output =>
        dsimp only
        cases parseSha256 output with
        | error source => exact .inl ⟨_, rfl, List.prefix_rfl⟩
        | ok actual =>
          dsimp only
          split_ifs with hactual
          · exact .inl ⟨_, rfl, List.prefix_rfl⟩
          · exact .inr ⟨rfl, rfl, rfl, fun hnone => by cases hnone⟩
  | activateAtomically active =>
    simp only [Execution.step, Execution.call, callOf]
    cases e.temporary with
    | none => exact .inl ⟨_, rfl, List.prefix_append _ _⟩
    | some path =>
      dsimp only
      cases respond e.calls (.runRemote (activateScript path active)) with
      | error source => exact .inl ⟨_, rfl, List.prefix_rfl⟩
      | ok output => exact .inr ⟨rfl, rfl, rfl, fun hnone => by cases hnone⟩
  | startStdioRelay path dir =>
    exact .inr ⟨rfl, (List.append_nil e.calls).symm, rfl, fun _ => ⟨path, dir, rfl⟩⟩

/-- A run makes the calls of its steps, up to the one that fails. -/
theorem calls_steps (plan : DeploymentPlan) (steps : List DeploymentStep) (e : Execution) :
    (e.steps respond plan steps).2.calls <+: e.calls ++ plannedCalls plan e.temporary steps ∧
    ((e.steps respond plan steps).1 = .ok () →
      (e.steps respond plan steps).2.calls = e.calls ++ plannedCalls plan e.temporary steps) := by
  have hstop : ∀ calls : List Call, calls <+: calls ++ [] ∧
      ((.ok () : Except DeployExecError Unit) = .ok () → calls = calls ++ []) :=
    fun calls => ⟨List.prefix_append calls [], fun _ => (List.append_nil calls).symm⟩
  induction steps generalizing e with
  | nil => exact hstop e.calls
  | cons step rest ih =>
    by_cases hstart : ∃ path dir, step = .startStdioRelay path dir
    · obtain ⟨path, dir, rfl⟩ := hstart
      exact hstop e.calls
    · have hsteps : e.steps respond plan (step :: rest) = match e.step respond plan step with
          | (.error error, e) => (.error error, e)
          | (.ok _, e) => e.steps respond plan rest := by
        cases step with
        | startStdioRelay path dir => exact (hstart ⟨path, dir, rfl⟩).elim
        | _ => rfl
      rw [hsteps]
      have hcases := step_cases respond plan e step
      generalize e.step respond plan step = outcome at hcases ⊢
      obtain ⟨result, e'⟩ := outcome
      dsimp only at hcases
      obtain ⟨error, hresult, hcalls⟩ | ⟨hresult, hcalls, htemporary, hcall⟩ := hcases
      · -- the step fails, and the calls end with its own
        subst hresult
        refine ⟨hcalls.trans ?_, fun hok => by cases hok⟩
        rw [plannedCalls]
        cases callOf plan e.temporary step with
        | none => exact List.prefix_rfl
        | some call => exact (List.prefix_append_right_inj e.calls).2 (List.prefix_append [call] _)
      · subst hresult
        obtain ⟨call, hsome⟩ := Option.ne_none_iff_exists'.1 fun hnone => hstart (hcall hnone)
        have hplanned : e.calls ++ plannedCalls plan e.temporary (step :: rest) =
            e'.calls ++ plannedCalls plan e'.temporary rest := by
          rw [plannedCalls, hsome, hcalls, htemporary, hsome]
          simp
        rw [hplanned]
        exact ih e'

/-- The calls for a directory. -/
def callsFor (artifact : RelayArtifact) (directory : String) : List Call :=
  [.runRemote probeScript, .runRemote (mkdirScript directory),
    .uploadFile artifact.localPath (temporaryPath directory),
    .runRemote (sha256Script (temporaryPath directory)),
    .runRemote (activateScript (temporaryPath directory) (activePath directory))]

/-- The calls that an accepted plan leads to. -/
theorem calls_execute (h : DeploymentPlan.newWithRuntimeDir isAbsolute host artifact directory
    runtimeDirectory = .ok plan) :
    (execute respond plan).2.calls <+: callsFor artifact directory ∧
    ((execute respond plan).1 = .ok () →
      (execute respond plan).2.calls = callsFor artifact directory) := by
  obtain ⟨-, rfl⟩ := plan_of_accepted h
  exact calls_steps respond _ _ Execution.initial

/-! ## The files of a deployment -/

/-- The remote directory with its tilde in quotes is another one : what is created does not hold
the upload, what is hashed and moved is not the upload, and what is activated is not what is
started, by the path of the plan or by the default one. -/
theorem files_differ (h : DeploymentPlan.newWithRuntimeDir isAbsolute host artifact directory
    runtimeDirectory = .ok plan) (home : Path) (resume : ℕ) (eventSpoolDir : Option String) :
    (execute respond plan).2.calls <+: callsFor artifact directory ∧
    ((execute respond plan).1 = .ok () →
      (execute respond plan).2.calls = callsFor artifact directory) ∧
    plan.steps.getLast? = some (.startStdioRelay (activePath directory) runtimeDirectory) ∧
    ∃ created hashed activated,
      createdBy home (mkdirScript directory) = [created] ∧
      ¬ created <+: uploadedTo home (temporaryPath directory) ∧
      hashedBy home (sha256Script (temporaryPath directory)) = [hashed, hashed] ∧
      hashed ≠ uploadedTo home (temporaryPath directory) ∧
      movedBy home (activateScript (temporaryPath directory) (activePath directory)) =
        [(hashed, activated)] ∧
      ∀ path ∈ [activePath directory, defaultRemoteRelayPath], ∃ started,
        startedBy home (remoteCommand path host resume eventSpoolDir) = some started ∧
        activated ≠ started := by
  obtain ⟨hcalls, hdone⟩ := calls_execute respond h
  obtain ⟨hvalid, rfl⟩ := plan_of_accepted h
  obtain ⟨⟨rest, hdir⟩, hchars⟩ := of_validPrivatePath hvalid
  have hquote := quote_notMem_of_isPathChar hchars
  have htemporary := quote_notMem_of_isPathChar
    (isPathChar_child hchars "/llm-notch-relay.tmp" (by decide))
  have hactive := isPathChar_child hchars "/llm-notch-relay" (by decide)
  have htmp : names "llm-notch-relay.tmp".toList = ["llm-notch-relay.tmp".toList] := by
    decide
  have hrelay : names "llm-notch-relay".toList = ["llm-notch-relay".toList] := by
    decide
  refine ⟨hcalls, hdone, rfl, _, _, _, createdBy_mkdirScript home hquote, ?_,
    hashedBy_sha256Script home htemporary, ?_,
    movedBy_activateScript home htemporary (quote_notMem_of_isPathChar hactive), ?_⟩
  · rw [hdir, Shell.denote_literal, uploadedTo, temporaryPath_eq, denote_bare_child home hdir htmp]
    exact not_prefix_child home (names rest) (by decide)
  · rw [uploadedTo, temporaryPath_eq, denote_literal_child home hdir htmp,
      denote_bare_child home hdir htmp]
    exact literal_child_ne_bare_child home (names rest) _
  · rw [activePath_eq, denote_literal_child home hdir hrelay]
    have hstarted : ∀ path : String, path.toList.all isPathChar = true → path.toList ≠ [] →
        startedBy home (remoteCommand path host resume eventSpoolDir) =
          some (denote home (bare path.toList)) :=
      fun path hpath hne => startedBy_remoteCommand home (plain_of_isPathChar hpath) hne host resume
        eventSpoolDir
    intro path hpath
    simp only [List.mem_cons, List.not_mem_nil, or_false] at hpath
    rcases hpath with rfl | rfl
    · have hne : (activePath directory).toList ≠ [] := by
        rw [activePath_eq, toList_child hdir]
        exact List.cons_ne_nil _ _
      refine ⟨_, hstarted (activePath directory) hactive hne, ?_⟩
      rw [activePath_eq, denote_bare_child home hdir hrelay]
      exact literal_child_ne_bare_child home (names rest) _
    · refine ⟨_, hstarted defaultRemoteRelayPath (by decide) (by decide), ?_⟩
      exact literal_child_ne_default home _

end Calls

/-! ## The default directory -/

open SessionRun (sampleHost)

def sampleArtifact : RelayArtifact :=
  ⟨"/opt/relay", ⟨.linux, .x86_64⟩, 12, String.ofList (List.replicate 64 'a')⟩

/-- The answers of a machine on which every call succeeds. -/
def sampleRespond (_ : List Call) : Call → Except DeployTransportError String
  | .uploadFile .. => .ok ""
  | .runRemote script =>
    if script = probeScript then .ok "Linux\nx86_64\n"
    else if script = sha256Script (temporaryPath defaultRemoteBinDirectory) then
      .ok (sampleArtifact.sha256 ++ "\n")
    else .ok ""

def samplePlan : DeploymentPlan :=
  ⟨"build-1", sampleArtifact, [.probeTarget, .createPrivateDirectory defaultRemoteBinDirectory,
    .uploadTemporary (temporaryPath defaultRemoteBinDirectory),
    .verifySha256 sampleArtifact.sha256,
    .activateAtomically (activePath defaultRemoteBinDirectory),
    .startStdioRelay (activePath defaultRemoteBinDirectory) "~/.llm-notch"]⟩

def sampleHome : Path :=
  ["home".toList, "builder".toList]

theorem samplePlan_accepted : DeploymentPlan.newWithRuntimeDir (fun _ => false) sampleHost
    sampleArtifact defaultRemoteBinDirectory "~/.llm-notch" = .ok samplePlan := by
  decide

theorem files_differ_default :
    DeploymentPlan.newWithRuntimeDir (fun _ => false) sampleHost sampleArtifact
      defaultRemoteBinDirectory "~/.llm-notch" = .ok samplePlan ∧
    (execute sampleRespond samplePlan).1 = .ok () ∧
    (execute sampleRespond samplePlan).2.calls =
      callsFor sampleArtifact defaultRemoteBinDirectory := by
  have hdone : (execute sampleRespond samplePlan).1 = .ok () := by
    decide +kernel
  have hfiles := files_differ sampleRespond samplePlan_accepted sampleHome 0 none
  exact ⟨samplePlan_accepted, hdone, hfiles.2.1 hdone⟩

/-- With the default directory, the upload goes to `.llm-notch` of the home directory, and the
scripts work on `~/.llm-notch` of it. -/
theorem default_files_differ :
    createdBy sampleHome (mkdirScript defaultRemoteBinDirectory) =
      [sampleHome ++ ["~", ".llm-notch", "bin"].map String.toList] ∧
    uploadedTo sampleHome (temporaryPath defaultRemoteBinDirectory) =
      sampleHome ++ [".llm-notch", "bin", "llm-notch-relay.tmp"].map String.toList ∧
    hashedBy sampleHome (sha256Script (temporaryPath defaultRemoteBinDirectory)) =
      [sampleHome ++ ["~", ".llm-notch", "bin", "llm-notch-relay.tmp"].map String.toList,
        sampleHome ++ ["~", ".llm-notch", "bin", "llm-notch-relay.tmp"].map String.toList] ∧
    movedBy sampleHome (activateScript (temporaryPath defaultRemoteBinDirectory)
        (activePath defaultRemoteBinDirectory)) =
      [(sampleHome ++ ["~", ".llm-notch", "bin", "llm-notch-relay.tmp"].map String.toList,
        sampleHome ++ ["~", ".llm-notch", "bin", "llm-notch-relay"].map String.toList)] ∧
    startedBy sampleHome
        (remoteCommand (activePath defaultRemoteBinDirectory) sampleHost 0 none) =
      some (sampleHome ++ [".llm-notch", "bin", "llm-notch-relay"].map String.toList) ∧
    ¬ ((∀ d ∈ createdBy sampleHome (mkdirScript defaultRemoteBinDirectory),
        d <+: uploadedTo sampleHome (temporaryPath defaultRemoteBinDirectory)) ∧
      (∀ f ∈ hashedBy sampleHome (sha256Script (temporaryPath defaultRemoteBinDirectory)),
        f = uploadedTo sampleHome (temporaryPath defaultRemoteBinDirectory))) := by
  have hquote : '\'' ∉ (temporaryPath defaultRemoteBinDirectory).toList := by
    decide
  rw [createdBy_mkdirScript sampleHome (by decide), hashedBy_sha256Script sampleHome hquote,
    movedBy_activateScript sampleHome hquote (by decide),
    startedBy_remoteCommand sampleHome (plain_of_isPathChar (by decide))
      (by decide)]
  decide

end Relay

end LlmNotch
