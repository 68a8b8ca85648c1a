import LlmNotch.UnifiedDiff
import LlmNotch.UnreadableConfig

/-!
# The diff in a preview

A preview shows the diff of the text in the file and the text after the edit. A diff of more than
`maxConnectorDiffLen` bytes is cut at that byte with `String::truncate`, which asserts that a
character ends there. Nothing looks for the end of a character first : a diff that has a character
of two or more bytes across the cut ends the preview with a panic.

`preview_never_panics_iff` says that this is the only way for a preview to panic.
-/

namespace LlmNotch

namespace Connector

/-! ## Bytes of a text -/

/-- The first `n` bytes of a text, if a character ends there. -/
def takeBytes : List Char → ℕ → Option (List Char)
  | _, 0 => some []
  | [], _ + 1 => none
  | c :: cs, n + 1 =>
    if c.utf8Size ≤ n + 1 then (takeBytes cs (n + 1 - c.utf8Size)).map (c :: ·) else none

/-- A character begins before the byte `n` and ends after it. -/
def Straddles (text : List Char) (n : ℕ) : Prop :=
  ∃ before c rest, text = before ++ c :: rest ∧ String.utf8Len before < n ∧
    n < String.utf8Len before + c.utf8Size

theorem straddles_cons {c : Char} {cs : List Char} {n : ℕ} (h : c.utf8Size ≤ n) :
    Straddles (c :: cs) n ↔ Straddles cs (n - c.utf8Size) := by
  constructor
  · rintro ⟨before, d, rest, heq, hbegins, hends⟩
    cases before with
    | nil =>
      obtain rfl := (List.cons.inj heq).1
      rw [String.utf8Len_nil] at hends
      omega
    | cons e before =>
      obtain ⟨rfl, rfl⟩ := List.cons.inj heq
      rw [String.utf8Len_cons] at hbegins hends
      exact ⟨before, d, rest, rfl, by omega, by omega⟩
  · rintro ⟨before, d, rest, rfl, hbegins, hends⟩
    refine ⟨c :: before, d, rest, rfl, ?_, ?_⟩
    all_goals
      rw [String.utf8Len_cons]
      omega

/-- A text can be cut unless a character is across. -/
theorem takeBytes_eq_none {cs : List Char} {n : ℕ} (hlong : n ≤ String.utf8Len cs) :
    takeBytes cs n = none ↔ Straddles cs n := by
  induction cs generalizing n with
  | nil =>
    obtain rfl : n = 0 := Nat.le_zero.1 hlong
    refine ⟨fun h => (Option.some_ne_none _ h).elim, ?_⟩
    rintro ⟨before, c, rest, heq, -⟩
    simp at heq
  | cons c cs ih =>
    rw [String.utf8Len_cons] at hlong
    cases n with
    | zero =>
      refine ⟨fun h => (Option.some_ne_none _ h).elim, ?_⟩
      rintro ⟨before, d, rest, -, hbegins, -⟩
      omega
    | succ n =>
      rw [takeBytes]
      split
      next hfits => rw [Option.map_eq_none_iff, ih (by omega), straddles_cons hfits]
      next hshort =>
        refine ⟨fun _ => ⟨[], c, cs, rfl, ?_, ?_⟩, fun _ => rfl⟩
        · exact Nat.succ_pos n
        · rw [String.utf8Len_nil]
          omega

/-! ## Previews -/

/-- How a preview ends without one. -/
inductive Stop where
  | returned (error : ConnectorError)
  | panicked (message : String)
  deriving DecidableEq

/-- `String::truncate`. -/
def truncate (text : String) (newLen : ℕ) : Except Stop String :=
  if newLen ≤ text.utf8ByteSize then
    match takeBytes text.toList newLen with
    | some kept => .ok (String.ofList kept)
    | none => .error (.panicked "assertion failed: self.is_char_boundary(new_len)")
  else .ok text

/-- `MAX_CONNECTOR_DIFF_LEN`. -/
def maxConnectorDiffLen : ℕ := 65536

def truncateDiff (diff : String) : Except Stop String := do
  if maxConnectorDiffLen < diff.utf8ByteSize then
    let kept ← truncate diff maxConnectorDiffLen
    return kept ++ "\n... [truncated]"
  else
    return diff

theorem truncateDiff_panics {diff : String} :
    (∃ message, truncateDiff diff = .error (.panicked message)) ↔
      Straddles diff.toList maxConnectorDiffLen := by
  have hsize := String.utf8Len_toList diff
  unfold truncateDiff
  split
  next hlong =>
    rw [← takeBytes_eq_none (by omega), truncate, if_pos hlong.le]
    cases takeBytes diff.toList maxConnectorDiffLen with
    | none => exact ⟨fun _ => rfl, fun _ => ⟨_, rfl⟩⟩
    | some kept =>
      refine ⟨?_, fun h => (Option.some_ne_none _ h).elim⟩
      rintro ⟨message, h⟩
      cases h
  next hshort =>
    constructor
    · rintro ⟨message, h⟩
      cases h
    · rintro ⟨before, c, rest, heq, -, hends⟩
      rw [heq, String.utf8Len_append, String.utf8Len_cons] at hsize
      omega

/-- A cut that does not panic does not fail. -/
theorem truncateDiff_returns {diff : String} {error : ConnectorError} :
    truncateDiff diff ≠ .error (.returned error) := by
  intro h
  unfold truncateDiff truncate at h
  split at h
  · split at h
    · split at h
      · cases h
      · cases h
    · cases h
  · cases h

structure ConnectorFilePreview where
  displayPath : String
  baselineSha256 : String
  diffText : String
  foreignEntriesPreserved : List String
  isNewFile : Bool

inductive ExternalTrustActionKind where
  | codexHooksReview | other
  deriving DecidableEq

structure ExternalTrustAction where
  kind : ExternalTrustActionKind
  instructions : String

structure ConnectorPlanPreview where
  planId : String
  source : AgentSource
  scope : ConnectorScope
  expiresAtMs : ℤ
  summary : String
  files : List ConnectorFilePreview
  externalTrustActions : List ExternalTrustAction
  backupDisplayHint : Option String

/-- What the user has to do in the agent itself. -/
def AdapterDescriptor.externalTrustActions (adapter : AdapterDescriptor) :
    List ExternalTrustAction :=
  match adapter.source with
  | .codex => [⟨.codexHooksReview,
      "Run /hooks in Codex and approve the llm_notch hooks to finish setup."⟩]
  | _ => []

def operationSummary (operation : PlanOperation) (displayPath : String) : String :=
  match operation with
  | .install => s!"Add llm_notch hooks to {displayPath}"
  | .remove => s!"Remove llm_notch hooks from {displayPath}"
  | .repair => s!"Repair llm_notch hooks in {displayPath}"
  | .rollback => s!"Rollback {displayPath}"

def emptySummary : PlanOperation → String
  | .install => "Already up to date — llm_notch hooks are present; no changes needed."
  | .remove => "No llm_notch hooks found — nothing to remove."
  | .repair => "Configuration matches expected llm_notch hooks."
  | .rollback => "Nothing to rollback."

/-- The diff of a file before and after an edit. -/
def editDiff (displayPath baselineText mergedText : String) : String :=
  Diff.unifiedDiff ("a/" ++ displayPath) ("b/" ++ displayPath) baselineText mergedText

/-- The diff of a preview : none if the edit changes nothing. -/
def diffOf (displayPath baselineText mergedText : String) : Except Stop String :=
  if baselineText = mergedText then .ok ""
  else truncateDiff (editDiff displayPath baselineText mergedText)

namespace ManagerConfig

/-- `build_preview`, with what it shows. -/
def planPreview (config : ManagerConfig) (call : Call) (adapter : AdapterDescriptor)
    (scope : ConnectorScope) (operation : PlanOperation) (root : ScopeRoot) (disk : Disk) :
    Except Stop (ConnectorPlanPreview × StoredPlan) := do
  let target := adapter.targetFor scope
  let displayPath := root.displayPath target
  let path := root.resolve target
  (checks [call.previewFaults.resolve,
    if disk.has path then call.previewFaults.rejectHardlink else none]).mapError .returned
  let template ← (config.loadTemplate adapter.source).mapError fun error =>
    .returned (.internal ("template read failed: " ++ error))
  let (text, baseline, isNewFile) ← (config.readBaseline call disk path).mapError .returned
  let (merged, foreign) ←
    (Connector.buildPreview adapter.format operation baseline template).mapError
      fun error => .returned (.invalidRequest error)
  let mergedText := config.prettyJson merged
  let backupDisplay := backupDisplayPath displayPath (config.backupTimestamp call.now)
  let diffText ← diffOf displayPath text mergedText
  let preview : ConnectorPlanPreview := {
    planId := call.planId
    source := adapter.source
    scope := scope
    expiresAtMs := planExpiresAt call.now
    summary := if text = mergedText then emptySummary operation
      else operationSummary operation displayPath
    files := [⟨displayPath, config.sha256Hex (asBytes text), diffText, foreign, isNewFile⟩]
    externalTrustActions := if operation = .install then adapter.externalTrustActions else []
    backupDisplayHint := if text = mergedText then none else some backupDisplay }
  let stored : StoredPlan := {
    planId := call.planId
    source := adapter.source
    scope := scope
    operation := operation
    expiresAtMs := planExpiresAt call.now
    files := [{
      canonicalPath := path
      displayPath := displayPath
      baselineSha256 := config.sha256Hex (asBytes text)
      baselineText := text
      mergedText := mergedText
      isNewFile := isNewFile
      backupDisplayPath := if text = mergedText then "" else backupDisplay }] }
  return (preview, stored)

variable {config : ManagerConfig} {call : Call} {adapter : AdapterDescriptor}
  {scope : ConnectorScope} {operation : PlanOperation} {root : ScopeRoot} {disk : Disk}

/-- The checks of the target are passed. -/
def Passes (call : Call) (disk : Disk) (path : DiskPath) : Prop :=
  checks [call.previewFaults.resolve,
    if disk.has path then call.previewFaults.rejectHardlink else none] = .ok ()

/-- The file can be read and edited, and its diff has a character across the cut. -/
def CutsInside (config : ManagerConfig) (call : Call) (adapter : AdapterDescriptor)
    (scope : ConnectorScope) (operation : PlanOperation) (root : ScopeRoot) (disk : Disk) : Prop :=
  ∃ template text baseline isNewFile edited,
    config.loadTemplate adapter.source = .ok template ∧
    config.readBaseline call disk (root.resolve (adapter.targetFor scope)) =
      .ok (text, baseline, isNewFile) ∧
    Connector.buildPreview adapter.format operation baseline template = .ok edited ∧
    Straddles (editDiff (root.displayPath (adapter.targetFor scope)) text
      (config.prettyJson edited.1)).toList maxConnectorDiffLen

variable {text displayPath : String}

/-- The diff of an edit that changes nothing is empty. -/
theorem not_straddles_same :
    ¬Straddles (editDiff displayPath text text).toList maxConnectorDiffLen := by
  rintro ⟨before, c, rest, heq, -⟩
  rw [editDiff, Diff.unifiedDiff, if_pos rfl] at heq
  simp at heq

/-- A step that fails with an error of its own does not panic. -/
theorem bind_mapError_panics {ε α β : Type} {x : Except ε α} {g : ε → ConnectorError}
    {f : α → Except Stop β} {message : String} :
    (x.mapError (fun e => .returned (g e)) >>= f) = .error (.panicked message) ↔
      ∃ a, x = .ok a ∧ f a = .error (.panicked message) := by
  cases x with
  | error e =>
    constructor
    · intro h
      cases h
    · rintro ⟨a, h, -⟩
      cases h
  | ok a =>
    refine ⟨fun h => ⟨a, rfl, h⟩, ?_⟩
    rintro ⟨b, hb, h⟩
    cases hb
    exact h

theorem bind_ok_panics {α β : Type} {x : Except Stop α} {f : α → β} {stop : Stop} :
    (x >>= fun a => .ok (f a)) = .error stop ↔ x = .error stop := by
  cases x with
  | error e => exact ⟨fun h => congrArg Except.error (Except.error.inj h),
      fun h => congrArg Except.error (Except.error.inj h)⟩
  | ok a =>
    constructor <;>
    · intro h
      cases h

/-- The diff of a preview panics only at the cut. -/
theorem diffOf_panics {mergedText : String} :
    (∃ message, diffOf displayPath text mergedText = .error (.panicked message)) ↔
      Straddles (editDiff displayPath text mergedText).toList maxConnectorDiffLen := by
  unfold diffOf
  split
  next hsame =>
    subst hsame
    refine ⟨?_, fun h => absurd h not_straddles_same⟩
    rintro ⟨message, h⟩
    cases h
  next => exact truncateDiff_panics

/-- A preview panics only at the cut. -/
theorem planPreview_panics : (∃ message,
      config.planPreview call adapter scope operation root disk = .error (.panicked message)) ↔
    Passes call disk (root.resolve (adapter.targetFor scope)) ∧
      config.CutsInside call adapter scope operation root disk := by
  unfold planPreview
  constructor
  · rintro ⟨message, h⟩
    obtain ⟨⟨⟩, hchecks, h⟩ := bind_mapError_panics.1 h
    obtain ⟨template, hload, h⟩ := bind_mapError_panics.1 h
    obtain ⟨⟨text, baseline, isNewFile⟩, hread, h⟩ := bind_mapError_panics.1 h
    obtain ⟨edited, hedit, h⟩ := bind_mapError_panics.1 h
    have hdiff := bind_ok_panics.1 h
    exact ⟨hchecks, template, text, baseline, isNewFile, edited, hload, hread, hedit,
      diffOf_panics.1 ⟨message, hdiff⟩⟩
  · rintro ⟨hchecks, template, text, baseline, isNewFile, edited, hload, hread, hedit, hcut⟩
    obtain ⟨message, hdiff⟩ := diffOf_panics.2 hcut
    refine ⟨message, bind_mapError_panics.2 ⟨(), hchecks, ?_⟩⟩
    refine bind_mapError_panics.2 ⟨template, hload, ?_⟩
    refine bind_mapError_panics.2 ⟨(text, baseline, isNewFile), hread, ?_⟩
    exact bind_mapError_panics.2 ⟨edited, hedit, bind_ok_panics.2 hdiff⟩

/-- A preview that ends with a plan ends with the plan of `buildPreview`. -/
theorem planPreview_plan {preview : ConnectorPlanPreview} {stored : StoredPlan}
    (h : config.planPreview call adapter scope operation root disk = .ok (preview, stored)) :
    config.buildPreview call adapter scope operation root disk = .ok stored := by
  unfold planPreview at h
  obtain ⟨⟨⟩, hchecks, h⟩ := bind_eq_ok.1 h
  obtain ⟨template, hload, h⟩ := bind_eq_ok.1 h
  obtain ⟨⟨text, baseline, isNewFile⟩, hread, h⟩ := bind_eq_ok.1 h
  obtain ⟨edited, hedit, h⟩ := bind_eq_ok.1 h
  obtain ⟨diffText, -, h⟩ := bind_eq_ok.1 h
  obtain ⟨-, rfl⟩ := Prod.mk.inj (Except.ok.inj h)
  rw [mapError_eq_ok] at hchecks hload hread hedit
  unfold buildPreview
  exact bind_eq_ok.2 ⟨(), hchecks, bind_eq_ok.2 ⟨template, mapError_eq_ok.2 hload,
    bind_eq_ok.2 ⟨(text, baseline, isNewFile), hread,
      bind_eq_ok.2 ⟨edited, mapError_eq_ok.2 hedit, rfl⟩⟩⟩⟩

/-- For every content of the file, every template, scope and operation, a preview ends without a
panic exactly if no character of the diff is across the cut. -/
theorem preview_never_panics_iff (config : ManagerConfig) (call : Call)
    (adapter : AdapterDescriptor) (scope : ConnectorScope) (operation : PlanOperation)
    (root : ScopeRoot) (disk : Disk) :
    (∀ message, config.planPreview call adapter scope operation root disk ≠
        .error (.panicked message)) ↔
      (Passes call disk (root.resolve (adapter.targetFor scope)) →
        ¬config.CutsInside call adapter scope operation root disk) := by
  rw [← not_and, ← planPreview_panics, not_exists]

/-! ## A character across the cut -/

/-- A text of letters of two bytes, and no JSON. -/
def accents (n : ℕ) : String := String.ofList (List.replicate n 'é')

theorem utf8Len_replicate (n : ℕ) (c : Char) :
    String.utf8Len (List.replicate n c) = n * c.utf8Size := by
  induction n with
  | zero => simp
  | succ n ih => rw [List.replicate_succ, String.utf8Len_cons, ih, Nat.succ_mul]

/-- A text without a newline is one line. -/
theorem lines_single {cs : List Char} (hsome : cs ≠ []) (hplain : '\n' ∉ cs) :
    Diff.lines (String.ofList cs) = [String.ofList cs] := by
  have hparts : cs.splitOn '\n' = [cs] := List.splitOn_eq_singleton hplain
  simp only [Diff.lines, String.toList_ofList, hparts, List.getLast?_singleton, Option.getD_some,
    List.dropLast_singleton, List.map_nil, List.nil_append, hsome, if_false, List.map_cons]

/-- The hunk that replaces one line by another. -/
theorem hunks_line {old new : String} (hne : old ≠ new) (hold : Diff.lines old = [old])
    (hnew : Diff.lines new = [new]) : Diff.hunks old new = [⟨1, 1, [old], [new]⟩] := by
  have hcollect : Diff.collect 1 [] [] [old] [new] = ⟨[old], [new], [], []⟩ := by
    rw [Diff.collect, if_neg hne, if_neg (by simp), Diff.collect, if_pos (by simp)]
    rfl
  have hdiffer : ¬[old].head? = [new].head? := fun h => hne (Option.some.inj h)
  rw [Diff.hunks, hold, hnew]
  show Diff.hunksFrom 1 0 0 [old] [new] = _
  rw [Diff.hunksFrom, if_neg (by simp), if_neg hdiffer, hcollect, if_neg (by simp),
    Diff.hunksFrom, if_pos (by simp)]

theorem unifiedDiff_line {oldLabel newLabel old new : String} (hne : old ≠ new)
    (hold : Diff.lines old = [old]) (hnew : Diff.lines new = [new]) :
    Diff.unifiedDiff oldLabel newLabel old new =
      (s!"--- {oldLabel}\n+++ {newLabel}\n" ++ "@@ -1,1 +1,1 @@\n-") ++
        (old ++ ("\n+" ++ new ++ "\n")) := by
  have hheader : s!"@@ -{1},{1} +{1},{1} @@\n" ++ "-" = "@@ -1,1 +1,1 @@\n-" := by decide
  have hsign : "\n" ++ "+" = "\n+" := by decide
  rw [Diff.unifiedDiff, if_neg hne, hunks_line hne hold hnew, ← hheader, ← hsign]
  delta Diff.Hunk.render
  simp only [String.join, List.map_cons, List.map_nil, List.foldl_cons, List.foldl_nil,
    String.empty_append, String.append_assoc, List.length_singleton]

theorem accents_ne {n : ℕ} (h : text.toList.length < n) : accents n ≠ text := by
  rintro rfl
  rw [accents, String.toList_ofList, List.length_replicate] at h
  exact Nat.lt_irrefl n h

/-- The diff that takes away enough of these letters, under labels of 44 bytes. -/
theorem straddles_accents {n : ℕ} (h : 32732 < n) {oldLabel newLabel : String}
    (hlabels : oldLabel.utf8ByteSize + newLabel.utf8ByteSize = 44) :
    Straddles (Diff.unifiedDiff oldLabel newLabel (accents n) "\x7b\x7d").toList
      maxConnectorDiffLen := by
  have hold : Diff.lines (accents n) = [accents n] :=
    lines_single (by simp; omega) (by simp)
  have hnew : Diff.lines "\x7b\x7d" = ["\x7b\x7d"] := lines_single (by simp) (by simp)
  have hne : accents n ≠ "\x7b\x7d" := accents_ne (by simp; omega)
  obtain ⟨header, htext, hheader⟩ : ∃ header : String,
      Diff.unifiedDiff oldLabel newLabel (accents n) "\x7b\x7d" =
        header ++ (accents n ++ ("\n+" ++ "\x7b\x7d" ++ "\n")) ∧ header.utf8ByteSize = 71 := by
    refine ⟨_, unifiedDiff_line hne hold hnew, ?_⟩
    have hfixed : "--- ".utf8ByteSize = 4 ∧ "\n+++ ".utf8ByteSize = 5 ∧ "\n".utf8ByteSize = 1 ∧
        "@@ -1,1 +1,1 @@\n-".utf8ByteSize = 17 := by decide
    simp only [toString, String.utf8ByteSize_append, hfixed]
    omega
  obtain ⟨m, k, hm, rfl⟩ : ∃ m k, m = 32732 ∧ n = m + (k + 1) :=
    ⟨32732, n - 32733, rfl, by omega⟩
  refine ⟨header.toList ++ List.replicate m 'é', 'é',
    List.replicate k 'é' ++ ("\n+" ++ "\x7b\x7d" ++ "\n").toList, ?_, ?_⟩
  · rw [htext, accents, List.replicate_add, List.replicate_succ]
    simp only [String.toList_append, String.toList_ofList, List.append_assoc, List.cons_append]
  · have hletter : 'é'.utf8Size = 2 := by decide
    rw [String.utf8Len_append, String.utf8Len_toList, hheader, utf8Len_replicate, hletter, hm,
      maxConnectorDiffLen]
    omega

/-- The file of a text that is no JSON counts as an empty object. -/
theorem readBaseline_unreadable (hjson : unreadableConfig.fromStr text = none) :
    unreadableConfig.readBaseline (sampleCall 'a' 0)
      (oneFile homeHooks (some (Utf8.encode text)))
      (homeRoot.resolve (cursorAdapter.targetFor .user)) = .ok (text, .obj [], false) := by
  have hpath : homeRoot.resolve (cursorAdapter.targetFor .user) = homeHooks := by decide
  have hquiet : (sampleCall 'a' 0).previewFaults.readText = none := rfl
  rw [hpath]
  simp only [readBaseline, oneFile, Function.update_self, Utf8.decode_encode, hquiet, hjson,
    Option.getD_none]

theorem passes_sampleCall (disk : Disk) (path : DiskPath) :
    Passes (sampleCall 'a' 0) disk path := by
  have hquiet : (sampleCall 'a' 0).previewFaults.rejectHardlink = none := rfl
  rw [Passes, hquiet, ite_self]
  rfl

theorem displayPath_homeHooks :
    homeRoot.displayPath (cursorAdapter.targetFor .user) = "~/.cursor/hooks.json" := by
  decide

/-- The preview that takes the hooks out of a file with such a text. -/
theorem panics_accents {n : ℕ} (h : 32732 < n) :
    ∃ message, unreadableConfig.planPreview (sampleCall 'a' 0) cursorAdapter .user .remove homeRoot
      (oneFile homeHooks (some (Utf8.encode (accents n)))) = .error (.panicked message) := by
  have hjson : unreadableConfig.fromStr (accents n) = none :=
    if_neg (accents_ne (by simp; omega))
  have hcut := straddles_accents h (show ("a/" ++ "~/.cursor/hooks.json").utf8ByteSize +
    ("b/" ++ "~/.cursor/hooks.json").utf8ByteSize = 44 by decide)
  refine planPreview_panics.2 ⟨passes_sampleCall _ _, sampleTemplate, accents n, .obj [], false, _,
    rfl, readBaseline_unreadable hjson, rfl, ?_⟩
  rw [displayPath_homeHooks]
  exact hcut

theorem preview_panics_accents :
    ∃ message, unreadableConfig.planPreview (sampleCall 'a' 0) cursorAdapter .user .remove homeRoot
      (oneFile homeHooks (some (Utf8.encode (accents 40000)))) = .error (.panicked message) :=
  panics_accents (by decide)

end ManagerConfig

end Connector

end LlmNotch
