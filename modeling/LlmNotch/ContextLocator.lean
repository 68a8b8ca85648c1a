import LlmNotch.Base64
import LlmNotch.JsonRead
import LlmNotch.StateExcept
import LlmNotch.TextSearch
import LlmNotch.Wire
import LlmNotch.Utf8

/-!
# Context locators

The token that names where a session runs : a version prefix and the base64 code of the JSON
text of a payload (`LocatorPayload`). `ContextLocator.encode` checks the pane hint and the
terminal ids of the payload and the length of the token, `ContextLocator.parse` all of it again.

`parse_token` : the token of a locator that `encode` returns is parsed to the same locator.
`encode_eq_ok` : a locator is returned if the fields are in their alphabets and the payload has
at most 381 bytes of text, the number that `LocatorPayload.textSize` adds up. How the JSON
library reads a text is a parameter.
-/

namespace LlmNotch

namespace Context

open Json

def locatorPre : String := "ln1_"
def maxLocatorLen : ℕ := 512
def maxPaneHintLen : ℕ := 64
def maxTerminalIdLen : ℕ := 128
def payloadVersion : ℕ := 1

/-- Applications a context can be opened in. -/
inductive HostKind where
  | terminalApp
  | iTerm2
  | windowsTerminal
  | vsCode
  | cursor
  | unknownHost
  deriving DecidableEq

structure LocatorPayload where
  v : ℕ
  host : HostKind
  pid : Option ℕ
  startedAtMs : Option ℤ
  paneHint : Option String
  terminalSessionId : Option String
  tabId : Option String
  paneId : Option String
  windowHandle : Option ℕ
  deriving DecidableEq

inductive LocatorError where
  | empty
  | tooLong
  | invalidPre
  | unsafeCharacters
  | invalidEncoding
  | invalidPayload
  | invalidPaneHint
  | invalidVerifiedTerminalField
  | pathEscape
  deriving DecidableEq

structure ContextLocator where
  token : String
  payload : LocatorPayload
  deriving DecidableEq

/-! ## The payload as JSON -/

def HostKind.text : HostKind → String
  | terminalApp => "terminal_app"
  | iTerm2 => "i_term2"
  | windowsTerminal => "windows_terminal"
  | vsCode => "vs_code"
  | cursor => "cursor"
  | unknownHost => "unknown_host"

def HostKind.all : List HostKind :=
  [terminalApp, iTerm2, windowsTerminal, vsCode, cursor, unknownHost]

/-- A variant without data is its name, or an object that maps the name to `null`. -/
def HostKind.ofJson : Json → Option HostKind
  | str s => all.find? fun host => host.text = s
  | obj [(s, null)] => all.find? fun host => host.text = s
  | _ => none

def LocatorPayload.names : List String :=
  ["v", "host", "pid", "started_at_ms", "pane_hint", "terminal_session_id", "tab_id", "pane_id",
    "window_handle"]

def LocatorPayload.fields (p : LocatorPayload) : List (String × Json) :=
  [("v", .num (intText p.v)), ("host", .str p.host.text)] ++
    Ipc.optional "pid" (fun n : ℕ => .num (intText n)) p.pid ++
    Ipc.optional "started_at_ms" (fun n => .num (intText n)) p.startedAtMs ++
    Ipc.optional "pane_hint" .str p.paneHint ++
    Ipc.optional "terminal_session_id" .str p.terminalSessionId ++
    Ipc.optional "tab_id" .str p.tabId ++
    Ipc.optional "pane_id" .str p.paneId ++
    Ipc.optional "window_handle" (fun n : ℕ => .num (intText n)) p.windowHandle

def LocatorPayload.toJson (p : LocatorPayload) : Json := .obj p.fields

/-- An unsigned integer of so many bits. -/
def asUnsigned (bits : ℕ) (v : Json) : Option ℕ :=
  v.asInt.bind fun n => if 0 ≤ n ∧ n < 2 ^ bits then some n.toNat else none

def asSigned64 (v : Json) : Option ℤ :=
  v.asInt.bind fun n => if -2 ^ 63 ≤ n ∧ n < 2 ^ 63 then some n else none

/-- Unknown fields are passed over; a record in an array has all its fields. -/
def LocatorPayload.ofJson (json : Json) : Option LocatorPayload := do
  let fields ← match json with
    | obj fields => some fields
    | arr items => if items.length = names.length then some (names.zip items) else none
    | _ => none
  guard (namedOnce names fields)
  let v ← (fieldOf "v" fields).bind (asUnsigned 8)
  let host ← (fieldOf "host" fields).bind HostKind.ofJson
  let pid ← optionalOf (asUnsigned 32) "pid" fields
  let startedAtMs ← optionalOf asSigned64 "started_at_ms" fields
  let paneHint ← optionalOf asStr "pane_hint" fields
  let terminalSessionId ← optionalOf asStr "terminal_session_id" fields
  let tabId ← optionalOf asStr "tab_id" fields
  let paneId ← optionalOf asStr "pane_id" fields
  let windowHandle ← optionalOf (asUnsigned 64) "window_handle" fields
  return ⟨v, host, pid, startedAtMs, paneHint, terminalSessionId, tabId, paneId, windowHandle⟩

/-! ## Checks -/

def containsUnsafeShellChars (value : List Char) : Bool :=
  value.any fun c => c = ';' || c = '|' || c = '&' || c = '$' || c.toNat = 96 || c = '\n' ||
    c = '\r' || c.toNat = 0 || c = '<' || c = '>' || c = '(' || c = ')' || c.toNat = 123 ||
    c.toNat = 125

/-- The checks of the two kinds of fields; they differ in the bound, one character and the
error. -/
def validateField (max : ℕ) (allowed : Char → Bool) (error : LocatorError) (value : String) :
    Except LocatorError Unit :=
  if value.isEmpty ∨ max < value.utf8ByteSize then .error error
  else if RustText.contains "..".toList value.toList ∨ value.toList.contains '/' ∨
      value.toList.contains '\\' then .error .pathEscape
  else if containsUnsafeShellChars value.toList then .error .unsafeCharacters
  else if value.toList.all allowed then .ok ()
  else .error error

def validateTerminalId (value : String) : Except LocatorError Unit :=
  validateField maxTerminalIdLen (fun c => RustText.isAsciiAlphanumeric c || c = ' ' || c = '-' ||
    c = '_' || c = '.' || c = '%') .invalidVerifiedTerminalField value

def validatePaneHint (hint : String) : Except LocatorError Unit :=
  validateField maxPaneHintLen (fun c => RustText.isAsciiAlphanumeric c || c = ' ' || c = '-' ||
    c = '_' || c = '.') .invalidPaneHint hint

def validateVerifiedTerminalFields (terminal : VerifiedTerminalContext) :
    Except LocatorError Unit :=
  ([terminal.terminalSessionId, terminal.tabId, terminal.paneId].filterMap id).forM
    validateTerminalId

def validateWireToken (token : String) : Except LocatorError Unit :=
  if token.isEmpty then .error .empty
  else if maxLocatorLen < token.utf8ByteSize then .error .tooLong
  else if !locatorPre.toList.isPrefixOf token.toList then .error .invalidPre
  else if containsUnsafeShellChars token.toList then .error .unsafeCharacters
  else if RustText.contains "..".toList token.toList then .error .pathEscape
  else
    let suffix := token.toList.drop locatorPre.length
    if suffix.isEmpty || !suffix.all fun c =>
        RustText.isAsciiAlphanumeric c || c = '-' || c = '_' then
      .error .invalidEncoding
    else .ok ()

/-! ## Encoding and parsing -/

def noTerminal : VerifiedTerminalContext := ⟨none, none, none, none⟩

def LocatorPayload.verifiedTerminal (p : LocatorPayload) : VerifiedTerminalContext :=
  ⟨p.terminalSessionId, p.tabId, p.paneId, p.windowHandle⟩

/-- The payload for a host, a process, a pane hint and a terminal. -/
def payloadOf (host : HostKind) (process : Option ProcessIdentity) (paneHint : Option String)
    (verified : VerifiedTerminalContext) : LocatorPayload where
  v := payloadVersion
  host := host
  pid := process.map ProcessIdentity.pid
  startedAtMs := process.map ProcessIdentity.startedAtMs
  paneHint := paneHint
  terminalSessionId := verified.terminalSessionId
  tabId := verified.tabId
  paneId := verified.paneId
  windowHandle := verified.windowHandle

def tokenOf (payload : LocatorPayload) : String :=
  locatorPre ++ String.ofList (Base64.encode (Utf8.encode payload.toJson.text))

namespace ContextLocator

def encode (host : HostKind) (process : Option ProcessIdentity) (paneHint : Option String)
    (verifiedTerminal : Option VerifiedTerminalContext) : Except LocatorError ContextLocator := do
  paneHint.forM validatePaneHint
  let verified := verifiedTerminal.getD noTerminal
  validateVerifiedTerminalFields verified
  let payload := payloadOf host process paneHint verified
  let token := tokenOf payload
  if maxLocatorLen < token.utf8ByteSize then throw .tooLong else pure ⟨token, payload⟩

def parse (read : String → Option Json) (token : String) : Except LocatorError ContextLocator := do
  validateWireToken token
  let encoded := token.toList.drop locatorPre.length
  match Base64.decode encoded with
  | none => throw .invalidEncoding
  | some bytes =>
    match ((Utf8.decode bytes).bind read).bind LocatorPayload.ofJson with
    | none => throw .invalidPayload
    | some payload =>
      if payload.v ≠ payloadVersion then throw .invalidPayload
      else do
        payload.paneHint.forM validatePaneHint
        validateVerifiedTerminalFields payload.verifiedTerminal
        pure ⟨token, payload⟩

def process (locator : ContextLocator) : Option ProcessIdentity :=
  match locator.payload.pid, locator.payload.startedAtMs with
  | some pid, some startedAtMs => some ⟨pid, startedAtMs⟩
  | _, _ => none

def verifiedTerminal (locator : ContextLocator) : VerifiedTerminalContext :=
  locator.payload.verifiedTerminal

end ContextLocator

/-! ## Alphabets -/

/-- The characters of a terminal id. -/
def isPlain (c : Char) : Bool :=
  RustText.isAsciiAlphanumeric c || c = ' ' || c = '-' || c = '_' || c = '.' || c = '%'

/-- The characters of a pane hint. -/
def isHint (c : Char) : Bool :=
  RustText.isAsciiAlphanumeric c || c = ' ' || c = '-' || c = '_' || c = '.'

variable {c : Char} {value : String} {p : LocatorPayload} {terminal : VerifiedTerminalContext}
  {paneHint : Option String} {host : HostKind} {locator : ContextLocator}

theorem isPlain_of_isHint (h : isHint c = true) : isPlain c = true := by
  unfold isHint at h
  unfold isPlain
  rw [h, Bool.true_or]

/-- A plain character is none of those with a meaning of their own. -/
theorem toNat_of_isPlain (h : isPlain c = true) :
    c.toNat = 32 ∨ c.toNat = 37 ∨ c.toNat = 45 ∨ c.toNat = 46 ∨ c.toNat = 95 ∨
      (48 ≤ c.toNat ∧ c.toNat ≤ 57) ∨ (65 ≤ c.toNat ∧ c.toNat ≤ 90) ∨
      (97 ≤ c.toNat ∧ c.toNat ≤ 122) := by
  simp only [isPlain, RustText.isAsciiAlphanumeric, RustText.isAsciiDigit, Bool.or_eq_true,
    Bool.and_eq_true, decide_eq_true_eq] at h
  rcases h with (((((h | h) | h) | h) | h) | h) | h
  all_goals first | omega | (subst h; decide)

theorem ne_of_isPlain {d : Char} (h : isPlain c = true) (hd : isPlain d = false) : c ≠ d := by
  rintro rfl
  rw [h] at hd
  cases hd

theorem not_unsafe_of_isPlain {value : List Char} (h : ∀ c ∈ value, isPlain c = true) :
    containsUnsafeShellChars value = false := by
  refine List.any_eq_false.2 fun c hc => ?_
  have hplain := h c hc
  have hnat := toNat_of_isPlain hplain
  have hne : ∀ d : Char, isPlain d = false → c ≠ d := fun d => ne_of_isPlain hplain
  simp only [Bool.or_eq_true, decide_eq_true_eq, not_or]
  refine ⟨⟨⟨⟨⟨⟨⟨⟨⟨⟨⟨⟨⟨?_, ?_⟩, ?_⟩, ?_⟩, ?_⟩, ?_⟩, ?_⟩, ?_⟩, ?_⟩, ?_⟩, ?_⟩, ?_⟩, ?_⟩, ?_⟩
  all_goals first | omega | exact hne _ (by decide)

/-- A field is accepted if it has something of the alphabet in it, within the bound and without
two dots in a row. -/
structure Fits (max : ℕ) (allowed : Char → Bool) (value : String) : Prop where
  nonempty : value ≠ ""
  bounded : value.utf8ByteSize ≤ max
  noDots : ¬ RustText.contains "..".toList value.toList = true
  allowed : ∀ c ∈ value.toList, allowed c = true

theorem validateField_eq_ok {max : ℕ} {allowed : Char → Bool} {error : LocatorError}
    (hallowed : ∀ c, allowed c = true → isPlain c = true) :
    validateField max allowed error value = .ok () ↔ Fits max allowed value := by
  unfold validateField
  constructor
  · intro h
    split at h
    · cases h
    rename_i hbounds
    split at h
    · cases h
    rename_i hescape
    split at h
    · cases h
    split at h
    · rename_i hall
      exact ⟨fun he => hbounds (.inl (by simp [he])), by omega, fun hd => hescape (.inl hd),
        List.all_eq_true.1 hall⟩
    · cases h
  · intro h
    have hplain : ∀ c ∈ value.toList, isPlain c = true := fun c hc => hallowed c (h.allowed c hc)
    have hno : ∀ d : Char, isPlain d = false → ¬ value.toList.contains d = true := by
      intro d hd hmem
      exact ne_of_isPlain (hplain d (by simpa using hmem)) hd rfl
    have hbounds : ¬ (value.isEmpty = true ∨ max < value.utf8ByteSize) :=
      not_or.2 ⟨by simpa [String.isEmpty_iff] using h.nonempty, not_lt.2 h.bounded⟩
    have hescape : ¬ (RustText.contains "..".toList value.toList = true ∨
        value.toList.contains '/' = true ∨ value.toList.contains '\\' = true) :=
      not_or.2 ⟨h.noDots, not_or.2 ⟨hno _ (by decide), hno _ (by decide)⟩⟩
    rw [if_neg hbounds, if_neg hescape,
      if_neg (by simp [not_unsafe_of_isPlain hplain]), if_pos (List.all_eq_true.2 h.allowed)]

theorem validatePaneHint_eq_ok {hint : String} :
    validatePaneHint hint = .ok () ↔ Fits maxPaneHintLen isHint hint :=
  validateField_eq_ok fun _ h => isPlain_of_isHint h

theorem validateTerminalId_eq_ok :
    validateTerminalId value = .ok () ↔ Fits maxTerminalIdLen isPlain value :=
  validateField_eq_ok fun _ h => h

/-- The ids that are stored are those a locator takes. -/
theorem fits_of_ingest {field : String} (h : Ipc.validateTerminalIdField value field = .ok ()) :
    Fits maxTerminalIdLen isPlain value := by
  simp only [Ipc.validateTerminalIdField, Ipc.bind_ok_iff, Ipc.validateBounded_ok_iff,
    Ipc.require_ok_iff, Bool.not_eq_true', Bool.or_eq_false_iff] at h
  obtain ⟨⟨hpos, hbound⟩, ⟨⟨hdots, -⟩, -⟩, -, hall⟩ := h
  refine ⟨?_, hbound, Bool.eq_false_iff.1 hdots, List.all_eq_true.1 hall⟩
  rintro rfl
  cases hpos

/-! ## The size of the payload -/

/-- A quoted text of plain characters has no escapes. -/
theorem size_quote_of_plain {s : String} (h : ∀ c ∈ s.toList, isPlain c = true) :
    size (quote s) = size s + 2 := by
  have hescape : ∀ c ∈ s.toList, escapeChar c = [c] := by
    intro c hc
    have hplain := h c hc
    have hnat := toNat_of_isPlain hplain
    have hne : ∀ d : Char, isPlain d = false → c ≠ d := fun d => ne_of_isPlain hplain
    unfold escapeChar
    rw [if_neg (hne _ (by decide)), if_neg (hne _ (by decide)), if_neg (hne _ (by decide)),
      if_neg (hne _ (by decide)), if_neg (hne _ (by decide)), if_neg (by omega),
      if_neg (by omega), if_neg (by omega)]
  have hflat : s.toList.flatMap escapeChar = s.toList := by
    rw [List.flatMap_congr hescape]
    simp
  have hquote : size "\"" = 1 := by decide
  simp only [size] at hquote
  simp only [quote, hflat, String.ofList_toList, size, String.utf8ByteSize_append, hquote]
  omega

/-- The part of an object after its first field. -/
theorem size_textFields_cons (field : String × Json) (fields : List (String × Json)) :
    size (textFields (field :: fields)) =
      size (quote field.1) + size field.2.text + 1 + (fields.map fieldSize).sum := by
  have hcolon : size ":" = 1 := by decide
  have hcomma : size "," = 1 := by decide
  simp only [size] at hcolon hcomma
  induction fields generalizing field with
  | nil =>
    simp only [textFields, size, String.utf8ByteSize_append, hcolon, List.map_nil, List.sum_nil]
    omega
  | cons next rest ih =>
    have hnext := ih next
    simp only [size] at hnext
    simp only [textFields, size, String.utf8ByteSize_append, hcolon, hcomma, List.map_cons,
      List.sum_cons, fieldSize, hnext]
    omega

theorem sum_optional {α : Type} (key : String) (toJson : α → Json) (value : Option α) :
    ((Ipc.optional key toJson value).map fieldSize).sum =
      value.elim 0 fun v => fieldSize (key, toJson v) := by
  cases value <;> simp [Ipc.optional]

/-- The bytes of a number. -/
def digits (n : ℤ) : ℕ := size (intText n)

/-- The bytes of the compact text : names, punctuation and values. -/
def LocatorPayload.textSize (p : LocatorPayload) : ℕ :=
  16 + digits p.v + size p.host.text +
    p.pid.elim 0 (fun n => 7 + digits n) +
    p.startedAtMs.elim 0 (fun n => 17 + digits n) +
    p.paneHint.elim 0 (fun s => 15 + size s) +
    p.terminalSessionId.elim 0 (fun s => 25 + size s) +
    p.tabId.elim 0 (fun s => 12 + size s) +
    p.paneId.elim 0 (fun s => 13 + size s) +
    p.windowHandle.elim 0 (fun n => 17 + digits n)

theorem elim_congr {α : Type} {f g : α → ℕ} {value : Option α}
    (h : ∀ v, value = some v → f v = g v) : value.elim 0 f = value.elim 0 g := by
  cases value with
  | none => rfl
  | some v => exact h v rfl

theorem fieldSize_num (key : String) (n : ℤ) {k : ℕ} (hkey : size (quote key) + 2 = k) :
    fieldSize (key, .num (intText n)) = k + digits n := by
  show size (quote key) + size (intText n) + 2 = k + size (intText n)
  omega

theorem fieldSize_plain (key : String) {s : String} {k : ℕ} (hkey : size (quote key) + 4 = k)
    (h : ∀ c ∈ s.toList, isPlain c = true) : fieldSize (key, .str s) = k + size s := by
  show size (quote key) + size (quote s) + 2 = k + size s
  rw [size_quote_of_plain h]
  omega

theorem isPlain_hostText (host : HostKind) : ∀ c ∈ host.text.toList, isPlain c = true := by
  have hall : host.text.toList.all isPlain = true := by cases host <;> decide
  exact List.all_eq_true.1 hall

/-- The texts of the payload are in the alphabet of terminal ids. -/
structure LocatorPayload.Plain (p : LocatorPayload) : Prop where
  hint : ∀ s, p.paneHint = some s → ∀ c ∈ s.toList, isPlain c = true
  session : ∀ s, p.terminalSessionId = some s → ∀ c ∈ s.toList, isPlain c = true
  tab : ∀ s, p.tabId = some s → ∀ c ∈ s.toList, isPlain c = true
  pane : ∀ s, p.paneId = some s → ∀ c ∈ s.toList, isPlain c = true

theorem size_toJson (h : p.Plain) : size p.toJson.text = p.textSize := by
  have hbraces : size "\x7b" = 1 ∧ size "\x7d" = 1 := by decide
  have hv : size (quote "v") = 3 := by decide
  have hhost : fieldSize ("host", .str p.host.text) = 10 + size p.host.text :=
    fieldSize_plain "host" (by decide) (isPlain_hostText p.host)
  have hpid : ∀ n : ℕ, fieldSize ("pid", .num (intText n)) = 7 + digits n :=
    fun n => fieldSize_num "pid" n (by decide)
  have hstarted : ∀ n, fieldSize ("started_at_ms", .num (intText n)) = 17 + digits n :=
    fun n => fieldSize_num "started_at_ms" n (by decide)
  have hhandle : ∀ n : ℕ, fieldSize ("window_handle", .num (intText n)) = 17 + digits n :=
    fun n => fieldSize_num "window_handle" n (by decide)
  have hhint := elim_congr fun s hs =>
    fieldSize_plain "pane_hint" (k := 15) (by decide) (h.hint s hs)
  have hsession := elim_congr fun s hs =>
    fieldSize_plain "terminal_session_id" (k := 25) (by decide) (h.session s hs)
  have htab := elim_congr fun s hs =>
    fieldSize_plain "tab_id" (k := 12) (by decide) (h.tab s hs)
  have hpane := elim_congr fun s hs =>
    fieldSize_plain "pane_id" (k := 13) (by decide) (h.pane s hs)
  have htext : size p.toJson.text = 2 + size (textFields p.fields) := by
    show size ("\x7b" ++ textFields p.fields ++ "\x7d") = _
    simp only [size, String.utf8ByteSize_append] at hbraces ⊢
    omega
  rw [htext, LocatorPayload.fields]
  simp only [List.cons_append, List.nil_append, size_textFields_cons, List.map_cons,
    List.map_append, List.sum_cons, List.sum_append, sum_optional, hv, hhost, hpid, hstarted, hhandle, hhint,
    hsession, htab, hpane, LocatorPayload.textSize]
  show 2 + (3 + digits p.v + 1 + _) = _
  omega

/-! ## The round trip -/

/-- The integers are of the types that the fields have. -/
structure LocatorPayload.InRange (p : LocatorPayload) : Prop where
  v : p.v < 2 ^ 8
  pid : ∀ n, p.pid = some n → n < 2 ^ 32
  startedAtMs : ∀ n, p.startedAtMs = some n → -2 ^ 63 ≤ n ∧ n < 2 ^ 63
  windowHandle : ∀ n, p.windowHandle = some n → n < 2 ^ 64

theorem asUnsigned_intText {bits n : ℕ} (h : n < 2 ^ bits) :
    asUnsigned bits (.num (intText n)) = some n := by
  have hcast : (n : ℤ) < 2 ^ bits := by exact_mod_cast h
  rw [asUnsigned, asInt_intText, Option.bind_some, if_pos ⟨Int.natCast_nonneg n, hcast⟩,
    Int.toNat_natCast]

theorem asSigned64_intText {n : ℤ} (h : -2 ^ 63 ≤ n ∧ n < 2 ^ 63) :
    asSigned64 (.num (intText n)) = some n := by
  rw [asSigned64, asInt_intText, Option.bind_some, if_pos h]

theorem ofJson_hostText (host : HostKind) : HostKind.ofJson (.str host.text) = some host := by
  cases host <;> decide

theorem names_fields (p : LocatorPayload) :
    (p.fields.map Prod.fst).Sublist LocatorPayload.names := by
  simp only [LocatorPayload.fields, List.map_append]
  have hstart := List.Sublist.refl ["v", "host"]
  exact ((((((hstart.append names_toList_sublist).append names_toList_sublist).append
    names_toList_sublist).append names_toList_sublist).append names_toList_sublist).append
    names_toList_sublist).append names_toList_sublist

/-- A field with a bound on its values is read back. -/
theorem optionalOf_of_some {α : Type} {read : Json → Option α} {key : String}
    {fields : List (String × Json)} (toJson : α → Json) {value : Option α}
    (hfield : fieldOf key fields = value.map toJson)
    (hread : ∀ v, value = some v → read (toJson v) = some v) (hnull : ∀ v, toJson v ≠ null) :
    optionalOf read key fields = some value := by
  unfold optionalOf
  rw [hfield]
  cases value with
  | none => rfl
  | some v =>
    rw [Option.map_some]
    split
    · next h => cases h
    · next h => exact (hnull v (Option.some.inj h)).elim
    · next w _ h => rw [← Option.some.inj h, hread v rfl, Option.map_some]

theorem ofJson_toJson (h : p.InRange) : LocatorPayload.ofJson p.toJson = some p := by
  have honce : namedOnce LocatorPayload.names p.fields = true :=
    namedOnce_of_sublist (names_fields p) (by decide)
  have hv : fieldOf "v" p.fields = some (.num (intText p.v)) := by
    simp [LocatorPayload.fields, fieldOf]
  have hhost : fieldOf "host" p.fields = some (.str p.host.text) := by
    simp [LocatorPayload.fields, fieldOf]
  have hpid : optionalOf (asUnsigned 32) "pid" p.fields = some p.pid :=
    optionalOf_of_some (fun n : ℕ => .num (intText n))
      (by simp [LocatorPayload.fields, fieldOf_append, Ipc.optional, fieldOf_toList, fieldOf])
      (fun n hn => asUnsigned_intText (h.pid n hn)) (fun _ hnull => by cases hnull)
  have hstarted : optionalOf asSigned64 "started_at_ms" p.fields = some p.startedAtMs :=
    optionalOf_of_some (fun n => .num (intText n))
      (by simp [LocatorPayload.fields, fieldOf_append, Ipc.optional, fieldOf_toList, fieldOf])
      (fun n hn => asSigned64_intText (h.startedAtMs n hn)) (fun _ hnull => by cases hnull)
  have hhandle : optionalOf (asUnsigned 64) "window_handle" p.fields = some p.windowHandle :=
    optionalOf_of_some (fun n : ℕ => .num (intText n))
      (by simp [LocatorPayload.fields, fieldOf_append, Ipc.optional, fieldOf_toList, fieldOf])
      (fun n hn => asUnsigned_intText (h.windowHandle n hn)) (fun _ hnull => by cases hnull)
  have hstr : ∀ (key : String) (value : Option String),
      fieldOf key p.fields = value.map .str → optionalOf asStr key p.fields = some value :=
    fun key value hfield => optionalOf_eq hfield (fun _ => rfl) (fun _ hnull => by cases hnull)
  have hhint := hstr "pane_hint" p.paneHint
    (by simp [LocatorPayload.fields, fieldOf_append, Ipc.optional, fieldOf_toList, fieldOf])
  have hsession := hstr "terminal_session_id" p.terminalSessionId
    (by simp [LocatorPayload.fields, fieldOf_append, Ipc.optional, fieldOf_toList, fieldOf])
  have htab := hstr "tab_id" p.tabId
    (by simp [LocatorPayload.fields, fieldOf_append, Ipc.optional, fieldOf_toList, fieldOf])
  have hpane := hstr "pane_id" p.paneId
    (by simp [LocatorPayload.fields, fieldOf_append, Ipc.optional, fieldOf_toList, fieldOf])
  simp [LocatorPayload.ofJson, LocatorPayload.toJson, honce, hv, hhost, hpid, hstarted, hhandle,
    hhint, hsession, htab, hpane, asUnsigned_intText h.v, ofJson_hostText]

/-! ## Tokens -/

/-- The ids of a terminal that a locator takes. -/
def TerminalFits (terminal : VerifiedTerminalContext) : Prop :=
  ∀ value, terminal.terminalSessionId = some value ∨ terminal.tabId = some value ∨
    terminal.paneId = some value → Fits maxTerminalIdLen isPlain value

theorem validateVerifiedTerminalFields_eq_ok :
    validateVerifiedTerminalFields terminal = .ok () ↔ TerminalFits terminal := by
  unfold validateVerifiedTerminalFields TerminalFits
  rw [forM_eq_ok fun _ => validateTerminalId_eq_ok]
  simp [eq_comm]

theorem forM_validatePaneHint_eq_ok :
    paneHint.forM validatePaneHint = .ok () ↔
      ∀ hint, paneHint = some hint → Fits maxPaneHintLen isHint hint := by
  cases paneHint with
  | none => exact ⟨fun _ _ h => (by cases h), fun _ => rfl⟩
  | some hint =>
    show validatePaneHint hint = .ok () ↔ _
    rw [validatePaneHint_eq_ok]
    simp

theorem toNat_of_isAlphabet (h : Base64.isAlphabet c = true) :
    (48 ≤ c.toNat ∧ c.toNat ≤ 57) ∨ (65 ≤ c.toNat ∧ c.toNat ≤ 90) ∨
      (97 ≤ c.toNat ∧ c.toNat ≤ 122) ∨ c = '-' ∨ c = '_' := by
  unfold Base64.isAlphabet Base64.value at h
  split_ifs at h with hupper hlower hdigit hminus hunderscore
  · exact .inr (.inl hupper)
  · exact .inr (.inr (.inl hlower))
  · exact .inl hdigit
  · exact .inr (.inr (.inr (.inl hminus)))
  · exact .inr (.inr (.inr (.inr hunderscore)))
  · cases h

/-- The alphabet of the code is letters, digits and two more. -/
theorem isTokenChar_of_isAlphabet (h : Base64.isAlphabet c = true) :
    (RustText.isAsciiAlphanumeric c || c = '-' || c = '_') = true := by
  have hnat := toNat_of_isAlphabet h
  simp only [RustText.isAsciiAlphanumeric, RustText.isAsciiDigit, Bool.or_eq_true,
    Bool.and_eq_true, decide_eq_true_eq]
  tauto

theorem isPlain_of_isAlphabet (h : Base64.isAlphabet c = true) : isPlain c = true := by
  have htoken := isTokenChar_of_isAlphabet h
  simp only [Bool.or_eq_true] at htoken
  simp only [isPlain, Bool.or_eq_true]
  tauto

theorem utf8Size_of_isPlain (h : isPlain c = true) : c.utf8Size = 1 := by
  have hnat := toNat_of_isPlain h
  have hle : c.val ≤ 0x7f := UInt32.le_iff_toNat_le.2 (show c.toNat ≤ 127 by omega)
  simp [Char.utf8Size, hle]

/-- A plain text has a byte for each character. -/
theorem size_of_plain {cs : List Char} (h : ∀ c ∈ cs, isPlain c = true) :
    (String.ofList cs).utf8ByteSize = cs.length := by
  rw [String.utf8ByteSize_ofList]
  exact utf8Len_of_ascii fun c hc => utf8Size_of_isPlain (h c hc)

theorem length_utf8 (text : String) : (Utf8.encode text).length = size text := by
  rw [Utf8.encode, Array.length_toList]
  rfl

/-- The length of a token by the size of its payload. -/
theorem size_tokenOf (p : LocatorPayload) :
    (tokenOf p).utf8ByteSize = 4 + (4 * size p.toJson.text + 2) / 3 := by
  have hpre : locatorPre.utf8ByteSize = 4 := by decide
  rw [tokenOf, String.utf8ByteSize_append, hpre,
    size_of_plain fun c hc => isPlain_of_isAlphabet (Base64.isAlphabet_of_mem_encode c hc),
    Base64.length_encode, length_utf8]

/-- Most bytes of text that a token has room for. -/
def maxTextSize : ℕ := 381

theorem plain_payloadOf {process : Option ProcessIdentity}
    (hhint : ∀ hint, paneHint = some hint → Fits maxPaneHintLen isHint hint)
    (hterminal : TerminalFits terminal) : (payloadOf host process paneHint terminal).Plain :=
  ⟨fun s hs c hc => isPlain_of_isHint ((hhint s hs).allowed c hc),
    fun s hs => (hterminal s (.inl hs)).allowed, fun s hs => (hterminal s (.inr (.inl hs))).allowed,
    fun s hs => (hterminal s (.inr (.inr hs))).allowed⟩

/-- When a locator is returned, and which. -/
theorem encode_eq_ok {process : Option ProcessIdentity}
    {terminal : Option VerifiedTerminalContext} :
    ContextLocator.encode host process paneHint terminal = .ok locator ↔
      (∀ hint, paneHint = some hint → Fits maxPaneHintLen isHint hint) ∧
      TerminalFits (terminal.getD noTerminal) ∧
      (payloadOf host process paneHint (terminal.getD noTerminal)).textSize ≤ maxTextSize ∧
      locator = ⟨tokenOf (payloadOf host process paneHint (terminal.getD noTerminal)),
        payloadOf host process paneHint (terminal.getD noTerminal)⟩ := by
  unfold ContextLocator.encode
  rw [bind_eq_ok]
  have hroom : ∀ p : LocatorPayload, p.Plain →
      (¬ maxLocatorLen < (tokenOf p).utf8ByteSize ↔ p.textSize ≤ maxTextSize) := by
    intro p hp
    rw [size_tokenOf, size_toJson hp, maxLocatorLen, maxTextSize]
    omega
  constructor
  · rintro ⟨⟨⟩, hhint, h⟩
    obtain ⟨⟨⟩, hterminal, h⟩ := bind_eq_ok.1 h
    rw [forM_validatePaneHint_eq_ok] at hhint
    rw [validateVerifiedTerminalFields_eq_ok] at hterminal
    dsimp only at h
    split at h
    · cases h
    rename_i hlength
    exact ⟨hhint, hterminal, (hroom _ (plain_payloadOf hhint hterminal)).1 hlength,
      (Except.ok.inj h).symm⟩
  · rintro ⟨hhint, hterminal, hsize, rfl⟩
    refine ⟨(), forM_validatePaneHint_eq_ok.2 hhint,
      bind_eq_ok.2 ⟨(), validateVerifiedTerminalFields_eq_ok.2 hterminal, ?_⟩⟩
    rw [if_neg ((hroom _ (plain_payloadOf hhint hterminal)).2 hsize)]
    rfl

theorem drop_tokenOf (p : LocatorPayload) :
    (tokenOf p).toList.drop locatorPre.length =
      Base64.encode (Utf8.encode p.toJson.text) := by
  rw [tokenOf, String.toList_append, String.toList_ofList]
  exact List.drop_left' (by decide)

/-- A token that is short enough passes the checks of what comes over the wire. -/
theorem validateWireToken_tokenOf (h : ¬ maxLocatorLen < (tokenOf p).utf8ByteSize) :
    validateWireToken (tokenOf p) = .ok () := by
  have htoken : (tokenOf p).toList =
      locatorPre.toList ++ Base64.encode (Utf8.encode p.toJson.text) := by
    rw [tokenOf, String.toList_append, String.toList_ofList]
  have halphabet : ∀ c ∈ (tokenOf p).toList, Base64.isAlphabet c = true := by
    intro c hc
    rw [htoken] at hc
    rcases List.mem_append.1 hc with hc | hc
    · have hpre : locatorPre.toList.all Base64.isAlphabet = true := by decide
      exact List.all_eq_true.1 hpre c hc
    · exact Base64.isAlphabet_of_mem_encode c hc
  have hne : ¬ (tokenOf p).isEmpty = true := by
    rw [String.isEmpty_iff]
    intro hempty
    rw [hempty] at htoken
    have hnil := (List.append_eq_nil_iff.1 htoken.symm).1
    exact absurd hnil (by decide)
  have hpre : locatorPre.toList.isPrefixOf (tokenOf p).toList = true := by
    rw [htoken]
    exact List.isPrefixOf_iff_prefix.2 (List.prefix_append _ _)
  have hdots : ¬ RustText.contains "..".toList (tokenOf p).toList = true := by
    intro hmem
    have hdot : '.' ∈ (tokenOf p).toList := (RustText.contains_iff.1 hmem).subset (by decide)
    exact absurd (halphabet _ hdot) (by decide)
  have hcode : Base64.encode (Utf8.encode p.toJson.text) ≠ [] := by
    intro hnil
    have hlength := Base64.length_encode (Utf8.encode p.toJson.text)
    rw [hnil, length_utf8] at hlength
    have hbraces : size p.toJson.text ≠ 0 := by
      intro hzero
      have hempty := String.utf8ByteSize_eq_zero_iff.1 hzero
      rw [LocatorPayload.toJson, text] at hempty
      simp at hempty
    simp only [List.length_nil] at hlength
    omega
  have hall : (Base64.encode (Utf8.encode p.toJson.text)).all (fun c =>
      RustText.isAsciiAlphanumeric c || c = '-' || c = '_') = true := by
    exact List.all_eq_true.2 fun c hc =>
      isTokenChar_of_isAlphabet (Base64.isAlphabet_of_mem_encode c hc)
  have hsafe := not_unsafe_of_isPlain fun c hc => isPlain_of_isAlphabet (halphabet c hc)
  unfold validateWireToken
  rw [if_neg hne, if_neg h, if_neg (by simp [hpre]), if_neg (by simp [hsafe]), if_neg hdots]
  dsimp only
  rw [drop_tokenOf, if_neg]
  simp [hcode, hall]

/-- A token is parsed to the locator it came from. -/
theorem parse_token {read : String → Option Json} {process : Option ProcessIdentity}
    {terminal : Option VerifiedTerminalContext}
    (h : ContextLocator.encode host process paneHint terminal = .ok locator)
    (hrange : locator.payload.InRange)
    (hread : read locator.payload.toJson.text = some locator.payload.toJson) :
    ContextLocator.parse read locator.token = .ok locator := by
  obtain ⟨hhint, hterminal, hsize, rfl⟩ := encode_eq_ok.1 h
  have hplain : (payloadOf host process paneHint (terminal.getD noTerminal)).Plain :=
    plain_payloadOf hhint hterminal
  have hlength : ¬ maxLocatorLen <
      (tokenOf (payloadOf host process paneHint (terminal.getD noTerminal))).utf8ByteSize := by
    rw [size_tokenOf, size_toJson hplain, maxLocatorLen]
    rw [maxTextSize] at hsize
    omega
  refine bind_eq_ok.2 ⟨(), validateWireToken_tokenOf hlength, ?_⟩
  dsimp only
  rw [drop_tokenOf, Base64.decode_encode]
  dsimp only
  rw [Utf8.decode_encode, Option.bind_some, hread, Option.bind_some, ofJson_toJson hrange]
  dsimp only
  have hv : ¬ (payloadOf host process paneHint (terminal.getD noTerminal)).v ≠ payloadVersion :=
    not_not.2 rfl
  rw [if_neg hv]
  exact bind_eq_ok.2 ⟨(), forM_validatePaneHint_eq_ok.2 hhint,
    bind_eq_ok.2 ⟨(), validateVerifiedTerminalFields_eq_ok.2 hterminal, rfl⟩⟩

end Context

end LlmNotch
