import LlmNotch.JsonRead
import LlmNotch.PreviewDiff

/-!
# Reading a printed diff

A user sees the text of a diff. `readDiff` reads it : below the two labels there are hunks, each
with a header of four numbers, as many lines with a minus as its first count says, and as many
with a plus as its second one. A diff `Tells` how one text becomes another if it is empty exactly
for equal texts, and the hunks read from it make the new lines out of the old ones.

`readDiff_unifiedDiff` : what `unified_diff` prints is read back. `unified_diff_faithful` : it
tells how the one text becomes the other, and so does the diff in a preview, of the text in the
file and the text that an apply writes, unless it is longer than a preview shows
(`preview_hides_change`).
-/

namespace LlmNotch

namespace Connector

namespace Diff

/-! ## Headers -/

/-- What comes after a beginning, if the text has it. -/
def afterPrefix (start text : List Char) : Option (List Char) :=
  if start.isPrefixOf text then some (text.drop start.length) else none

theorem afterPrefix_append (start text : List Char) :
    afterPrefix start (start ++ text) = some text := by
  rw [afterPrefix, if_pos (List.isPrefixOf_iff_prefix.2 (List.prefix_append start text)),
    List.drop_left]

/-- The number after a beginning, and what comes after it. -/
def readNumber (start : String) (text : List Char) : Option (ℕ × List Char) :=
  (afterPrefix start.toList text).map fun rest =>
    (Nat.ofDigitChars 10 (rest.takeWhile Char.isDigit) 0, rest.dropWhile Char.isDigit)

theorem isDigit_of_mem_repr {n : ℕ} {c : Char} (h : c ∈ n.repr.toList) : c.isDigit = true := by
  rw [Nat.repr_eq_ofList_toDigits, String.toList_ofList] at h
  exact Nat.isDigit_of_mem_toDigits (by decide) (by decide) h

/-- A number is read back if no digit follows it. -/
theorem readNumber_repr (start : String) (n : ℕ) {c : Char} (rest : List Char)
    (hc : c.isDigit = false) :
    readNumber start (start.toList ++ (n.repr.toList ++ c :: rest)) = some (n, c :: rest) := by
  have hdigits : ∀ d ∈ n.repr.toList, d.isDigit = true := fun d => isDigit_of_mem_repr
  rw [readNumber, afterPrefix_append, Option.map_some, List.takeWhile_append_of_pos hdigits,
    List.dropWhile_append_of_pos hdigits, List.takeWhile_cons_of_neg (by simp [hc]),
    List.dropWhile_cons_of_neg (by simp [hc]), List.append_nil, Json.ofDigitChars_repr]

/-- The numbers of a header. -/
structure Header where
  oldStart : ℕ
  oldCount : ℕ
  newStart : ℕ
  newCount : ℕ
  deriving DecidableEq

def readHeader (line : List Char) : Option Header := do
  let oldStart ← readNumber "@@ -" line
  let oldCount ← readNumber "," oldStart.2
  let newStart ← readNumber " +" oldCount.2
  let newCount ← readNumber "," newStart.2
  if newCount.2 = " @@".toList then
    some ⟨oldStart.1, oldCount.1, newStart.1, newCount.1⟩
  else none

/-- The header of a hunk. -/
def Hunk.header (h : Hunk) : Header :=
  ⟨h.oldStart, h.removed.length, h.newStart, h.added.length⟩

/-- The first line of a hunk. -/
def Header.line (header : Header) : List Char :=
  "@@ -".toList ++ (header.oldStart.repr.toList ++ (",".toList ++ (header.oldCount.repr.toList ++
    (" +".toList ++ (header.newStart.repr.toList ++ (",".toList ++ (header.newCount.repr.toList ++
      " @@".toList)))))))

theorem readHeader_line (header : Header) : readHeader header.line = some header := by
  have hcomma : ∀ rest, ",".toList ++ rest = ',' :: rest := fun rest => rfl
  have hplus : ∀ rest, " +".toList ++ rest = ' ' :: ('+' :: rest) := fun rest => rfl
  have hend : " @@".toList = ' ' :: ['@', '@'] := rfl
  have hold := readNumber_repr "@@ -" header.oldStart
    (header.oldCount.repr.toList ++ (" +".toList ++ (header.newStart.repr.toList ++ (",".toList ++
      (header.newCount.repr.toList ++ " @@".toList))))) (show ','.isDigit = false by decide)
  have holdCount := readNumber_repr "," header.oldCount
    ('+' :: (header.newStart.repr.toList ++ (",".toList ++ (header.newCount.repr.toList ++
      " @@".toList)))) (show ' '.isDigit = false by decide)
  have hnew := readNumber_repr " +" header.newStart
    (header.newCount.repr.toList ++ " @@".toList) (show ','.isDigit = false by decide)
  have hnewCount := readNumber_repr "," header.newCount ['@', '@']
    (show ' '.isDigit = false by decide)
  rw [← hcomma] at hold hnew
  rw [← hplus] at holdCount
  rw [← hend] at hnewCount
  simp only [readHeader, Header.line, hold, holdCount, hnew, hnewCount, Option.bind_eq_bind,
    Option.bind_some, if_true]

/-! ## Hunks -/

/-- As many lines as the count says, each of them after the sign. -/
def readSigned (sign : Char) : ℕ → List (List Char) → Option (List String)
  | 0, _ => some []
  | n + 1, (c :: line) :: lines =>
    if c = sign then (readSigned sign n lines).map (String.ofList line :: ·) else none
  | _ + 1, _ => none

theorem readSigned_append (sign : Char) (lines : List String) (rest : List (List Char)) :
    readSigned sign lines.length ((lines.map fun line => sign :: line.toList) ++ rest) =
      some lines := by
  induction lines with
  | nil => rfl
  | cons line lines ih =>
    simp only [List.length_cons, List.map_cons, List.cons_append, readSigned, if_true, ih,
      Option.map_some, String.ofList_toList]

/-- Hunks until the lines end. -/
def readHunks : List (List Char) → Option (List Hunk)
  | [] => some []
  | line :: lines => do
    let header ← readHeader line
    let removed ← readSigned '-' header.oldCount lines
    let added ← readSigned '+' header.newCount (lines.drop header.oldCount)
    let rest ← readHunks (lines.drop (header.oldCount + header.newCount))
    some (⟨header.oldStart, header.newStart, removed, added⟩ :: rest)
termination_by lines => lines.length
decreasing_by
  rw [List.length_drop, List.length_cons]
  omega

/-- The lines of a hunk. -/
def Hunk.lines (h : Hunk) : List (List Char) :=
  h.header.line :: ((h.removed.map fun line => '-' :: line.toList) ++
    h.added.map fun line => '+' :: line.toList)

theorem readHunks_lines (hs : List Hunk) : readHunks (hs.flatMap Hunk.lines) = some hs := by
  induction hs with
  | nil =>
    rw [List.flatMap_nil, readHunks]
  | cons h hs ih =>
    have hdrop : ((h.removed.map fun line => '-' :: line.toList) ++
        ((h.added.map fun line => '+' :: line.toList) ++ hs.flatMap Hunk.lines)).drop
          h.removed.length =
        (h.added.map fun line => '+' :: line.toList) ++ hs.flatMap Hunk.lines :=
      List.drop_left' (List.length_map _)
    have hrest : ((h.removed.map fun line => '-' :: line.toList) ++
        ((h.added.map fun line => '+' :: line.toList) ++ hs.flatMap Hunk.lines)).drop
          (h.removed.length + h.added.length) = hs.flatMap Hunk.lines := by
      rw [← List.drop_drop, hdrop]
      exact List.drop_left' (List.length_map _)
    rw [List.flatMap_cons, Hunk.lines, List.cons_append, List.append_assoc, readHunks,
      readHeader_line]
    simp only [Option.bind_eq_bind, Option.bind_some, Hunk.header, readSigned_append, hdrop, hrest,
      ih]

/-! ## Diffs -/

/-- The hunks of a printed diff of files with these labels. -/
def readDiff (oldLabel newLabel text : String) : Option (List Hunk) :=
  if text = "" then some []
  else if text.toList.getLast? = some '\n' then
    (afterPrefix s!"--- {oldLabel}\n+++ {newLabel}\n".toList text.toList).bind fun body =>
      readHunks (body.splitOn '\n').dropLast
  else none

/-- Lines that all end are what the newlines split. -/
theorem splitOn_ended {lines : List (List Char)} (h : ∀ line ∈ lines, '\n' ∉ line) :
    (lines.flatMap (· ++ ['\n'])).splitOn '\n' = lines ++ [[]] := by
  induction lines with
  | nil => rfl
  | cons line lines ih =>
    have hline : '\n' ∉ line := h line List.mem_cons_self
    rw [List.flatMap_cons, List.append_assoc, List.singleton_append,
      List.splitOn_append_cons_self_of_not_mem hline,
      ih fun other hother => h other (List.mem_cons_of_mem line hother), List.cons_append]

theorem Header.line_plain (header : Header) : '\n' ∉ header.line := by
  have hnumber : ∀ n : ℕ, '\n' ∉ n.repr.toList := fun n hmem => by
    have hdigit : '\n'.isDigit = true := isDigit_of_mem_repr hmem
    cases hdigit
  have hfixed : '\n' ∉ "@@ -".toList ∧ '\n' ∉ ",".toList ∧ '\n' ∉ " +".toList ∧
      '\n' ∉ " @@".toList := by
    decide
  simp only [Header.line, List.mem_append, hnumber, hfixed, or_self, not_false_eq_true]

/-- A hunk is printed line by line. -/
theorem toList_render (h : Hunk) : h.render.toList = h.lines.flatMap (· ++ ['\n']) := by
  have hsigned : ∀ (sign : Char) (lines : List String),
      (String.join (lines.map fun line => String.singleton sign ++ line ++ "\n")).toList =
        (lines.map fun line => sign :: line.toList).flatMap (· ++ ['\n']) := by
    intro sign lines
    rw [String.toList_join, List.flatMap_map, List.flatMap_map]
    congr 1
    funext line
    simp
  have hheader : s!"@@ -{h.oldStart},{h.removed.length} +{h.newStart},{h.added.length} @@\n".toList
      = h.header.line ++ ['\n'] := by
    simp [Hunk.header, Header.line, toString]
  have hminus := hsigned '-' h.removed
  have hplus := hsigned '+' h.added
  delta Hunk.render
  rw [String.toList_append, String.toList_append, hheader, Hunk.lines,
    List.flatMap_cons, List.flatMap_append, ← hminus, ← hplus, List.append_assoc]
  rfl

/-! ## The lines of the hunks -/

/-- What newlines split has no newline. -/
theorem newline_notMem_splitOn {text part : List Char} (h : part ∈ text.splitOn '\n') :
    '\n' ∉ part := by
  induction text generalizing part with
  | nil =>
    obtain rfl := List.mem_singleton.1 h
    exact List.not_mem_nil
  | cons c text ih =>
    obtain ⟨first, others, hsplit⟩ := List.exists_cons_of_ne_nil (List.splitOn_ne_nil '\n' text)
    rw [List.splitOn_cons_eq_if_modifyHead, hsplit] at h
    rw [hsplit] at ih
    split at h
    · rcases List.mem_cons.1 h with rfl | h
      · exact List.not_mem_nil
      · exact ih h
    · rename_i hother
      rw [List.modifyHead_cons] at h
      rcases List.mem_cons.1 h with rfl | h
      · rw [List.mem_cons, not_or]
        exact ⟨fun heq => hother (beq_iff_eq.2 heq.symm), ih List.mem_cons_self⟩
      · exact ih (List.mem_cons_of_mem first h)

theorem newline_notMem_lines {text line : String} (h : line ∈ lines text) :
    '\n' ∉ line.toList := by
  rw [lines, List.mem_map] at h
  obtain ⟨part, hpart, rfl⟩ := h
  rw [String.toList_ofList]
  rcases List.mem_append.1 hpart with hpart | hpart
  · obtain ⟨whole, hwhole, rfl⟩ := List.mem_map.1 hpart
    have hplain : '\n' ∉ whole := newline_notMem_splitOn (List.mem_of_mem_dropLast hwhole)
    unfold stripCarriageReturn
    split
    · exact fun hmem => hplain (List.mem_of_mem_dropLast hmem)
    · exact hplain
  · split at hpart
    · cases hpart
    · obtain rfl := List.mem_singleton.1 hpart
      have hsome := List.getLast?_eq_some_getLast (List.splitOn_ne_nil '\n' text.toList)
      rw [hsome, Option.getD_some]
      exact newline_notMem_splitOn (List.getLast_mem _)

/-- A hunk has lines of the two texts. -/
theorem mem_of_hunksFrom (max a b : ℕ) (old new : List String) :
    ∀ h ∈ hunksFrom max a b old new,
      (∀ line ∈ h.removed, line ∈ old) ∧ ∀ line ∈ h.added, line ∈ new := by
  fun_induction hunksFrom max a b old new with
  | case1 a b old new hnone =>
    rintro h ⟨⟩
  | case2 a b old new hsome hsame ih =>
    exact fun h hh => ⟨fun line hline => List.mem_of_mem_tail ((ih h hh).1 line hline),
      fun line hline => List.mem_of_mem_tail ((ih h hh).2 line hline)⟩
  | case3 a b old new hsome hdiffer c hnone =>
    rintro h ⟨⟩
  | case4 a b old new hsome hdiffer c hlines ih =>
    obtain ⟨hold, hnew⟩ := collect_front max old new
    have holdLines : ∀ line, line ∈ c.removed ∨ line ∈ c.old → line ∈ old :=
      fun line hline => hold ▸ List.mem_append.2 hline
    have hnewLines : ∀ line, line ∈ c.added ∨ line ∈ c.new → line ∈ new :=
      fun line hline => hnew ▸ List.mem_append.2 hline
    intro h hh
    rcases List.mem_cons.1 hh with rfl | hh
    · exact ⟨fun line hline => holdLines line (.inl hline),
        fun line hline => hnewLines line (.inl hline)⟩
    · exact ⟨fun line hline => holdLines line (.inr ((ih h hh).1 line hline)),
        fun line hline => hnewLines line (.inr ((ih h hh).2 line hline))⟩

/-- No line of a hunk of two texts has a newline. -/
theorem newline_notMem_hunks {oldText newText : String} {line : List Char}
    (h : line ∈ (hunks oldText newText).flatMap Hunk.lines) : '\n' ∉ line := by
  obtain ⟨hunk, hmem, hline⟩ := List.mem_flatMap.1 h
  obtain ⟨hremoved, hadded⟩ := mem_of_hunksFrom _ 0 0 _ _ hunk hmem
  have hsign : '\n' ≠ '-' ∧ '\n' ≠ '+' := by decide
  rcases List.mem_cons.1 hline with rfl | hline
  · exact hunk.header.line_plain
  rcases List.mem_append.1 hline with hline | hline
  · obtain ⟨text, htext, rfl⟩ := List.mem_map.1 hline
    exact List.not_mem_cons_of_ne_of_not_mem hsign.1 (newline_notMem_lines (hremoved text htext))
  · obtain ⟨text, htext, rfl⟩ := List.mem_map.1 hline
    exact List.not_mem_cons_of_ne_of_not_mem hsign.2 (newline_notMem_lines (hadded text htext))

/-- Every line ends. -/
theorem getLast?_ended (start : List Char) (lines : List (List Char))
    (hstart : start.getLast? = some '\n') :
    (start ++ lines.flatMap (· ++ ['\n'])).getLast? = some '\n' := by
  induction lines generalizing start with
  | nil => rw [List.flatMap_nil, List.append_nil, hstart]
  | cons line lines ih =>
    rw [List.flatMap_cons, ← List.append_assoc]
    exact ih _ (by rw [← List.append_assoc, List.getLast?_concat])

/-- What is printed for two texts is read back. -/
theorem readDiff_unifiedDiff {oldLabel newLabel oldText newText : String}
    (hne : oldText ≠ newText) :
    readDiff oldLabel newLabel (unifiedDiff oldLabel newLabel oldText newText) =
      some (hunks oldText newText) := by
  have hprinted : (unifiedDiff oldLabel newLabel oldText newText).toList =
      (s!"--- {oldLabel}\n+++ {newLabel}\n").toList ++
        ((hunks oldText newText).flatMap Hunk.lines).flatMap (· ++ ['\n']) := by
    rw [unifiedDiff, if_neg hne, String.toList_append, String.toList_join, List.flatMap_map,
      List.flatMap_assoc]
    simp only [toList_render]
  have hlabels : (s!"--- {oldLabel}\n+++ {newLabel}\n").toList.getLast? = some '\n' := by
    have hend : s!"--- {oldLabel}\n+++ {newLabel}\n" =
        "--- " ++ oldLabel ++ "\n+++ " ++ newLabel ++ "\n" := by
      simp [toString]
    rw [hend, String.toList_append]
    exact List.getLast?_concat
  have hsome : unifiedDiff oldLabel newLabel oldText newText ≠ "" :=
    fun h => hne (unifiedDiff_eq_empty.1 h)
  have hplain : ∀ line ∈ (hunks oldText newText).flatMap Hunk.lines, '\n' ∉ line :=
    fun line hline => newline_notMem_hunks hline
  rw [readDiff, if_neg hsome, hprinted, if_pos (getLast?_ended _ _ hlabels), afterPrefix_append,
    Option.bind_some, splitOn_ended hplain, List.dropLast_concat, readHunks_lines]

/-- A diff of files with these labels, as it is printed, tells how the one text becomes the other :
it is empty exactly for equal texts, and the hunks read from it make the new lines. -/
def Tells (oldLabel newLabel diff oldText newText : String) : Prop :=
  (diff = "" ↔ oldText = newText) ∧
    ∃ hunks, readDiff oldLabel newLabel diff = some hunks ∧
      replay 0 0 hunks (lines oldText) = some (lines newText)

theorem tells_unifiedDiff (oldLabel newLabel oldText newText : String) :
    Tells oldLabel newLabel (unifiedDiff oldLabel newLabel oldText newText) oldText newText := by
  refine ⟨unifiedDiff_eq_empty, ?_⟩
  by_cases hsame : oldText = newText
  · subst hsame
    rw [unifiedDiff, if_pos rfl]
    exact ⟨[], if_pos rfl, rfl⟩
  · exact ⟨_, readDiff_unifiedDiff hsame, replay_hunks oldText newText⟩

end Diff

/-! ## Previews -/

theorem takeBytes_some {cs kept : List Char} {n : ℕ} (h : takeBytes cs n = some kept) :
    ∃ rest, cs = kept ++ rest ∧ String.utf8Len kept = n := by
  induction cs generalizing n kept with
  | nil =>
    cases n with
    | zero =>
      cases h
      exact ⟨[], rfl, rfl⟩
    | succ n => cases h
  | cons c cs ih =>
    cases n with
    | zero =>
      cases h
      exact ⟨c :: cs, rfl, rfl⟩
    | succ n =>
      rw [takeBytes] at h
      split at h
      · obtain ⟨kept, hkept, rfl⟩ := Option.map_eq_some_iff.1 h
        obtain ⟨rest, rfl, hsize⟩ := ih hkept
        refine ⟨rest, rfl, ?_⟩
        rw [String.utf8Len_cons, hsize]
        omega
      · cases h

/-- A preview shows all of a diff, or as much of it as it may, and says so. -/
inductive Shown (diff : String) : String → Prop
  | whole (h : diff.utf8ByteSize ≤ maxConnectorDiffLen) : Shown diff diff
  | cut (kept rest : String) (h : diff = kept ++ rest)
    (hsize : kept.utf8ByteSize = maxConnectorDiffLen)
    (hlong : maxConnectorDiffLen < diff.utf8ByteSize) : Shown diff (kept ++ "\n... [truncated]")

theorem Shown.empty {text : String} (h : Shown "" text) : text = "" := by
  generalize hdiff : "" = diff at h
  cases h with
  | whole => rfl
  | cut kept rest heq hsize hlong =>
    subst hdiff
    exact absurd hlong (by decide)

theorem shown_of_truncateDiff {diff text : String} (h : truncateDiff diff = .ok text) :
    Shown diff text := by
  unfold truncateDiff truncate at h
  split at h
  next hlong =>
    rw [if_pos hlong.le] at h
    cases htake : takeBytes diff.toList maxConnectorDiffLen with
    | none =>
      rw [htake] at h
      cases h
    | some kept =>
      rw [htake] at h
      cases h
      obtain ⟨rest, hdiff, hsize⟩ := takeBytes_some htake
      refine .cut _ (String.ofList rest) ?_ ?_ hlong
      · rw [← String.ofList_append, ← hdiff, String.ofList_toList]
      · rw [String.utf8ByteSize_ofList, hsize]
  next hshort =>
    cases h
    exact .whole (Nat.le_of_not_lt hshort)

namespace ManagerConfig

variable {config : ManagerConfig} {call : Call} {adapter : AdapterDescriptor}
  {scope : ConnectorScope} {operation : PlanOperation} {root : ScopeRoot} {disk : Disk}

/-- The diff in a preview is that of the text in the file and the text an apply writes. -/
theorem planPreview_shown {preview : ConnectorPlanPreview} {stored : StoredPlan}
    (h : config.planPreview call adapter scope operation root disk = .ok (preview, stored)) :
    ∃ shown file, preview.files = [shown] ∧ stored.files = [file] ∧
      shown.displayPath = file.displayPath ∧
      Shown (editDiff file.displayPath file.baselineText file.mergedText) shown.diffText := by
  unfold planPreview at h
  obtain ⟨⟨⟩, -, h⟩ := bind_eq_ok.1 h
  obtain ⟨template, -, h⟩ := bind_eq_ok.1 h
  obtain ⟨⟨text, baseline, isNewFile⟩, -, h⟩ := bind_eq_ok.1 h
  obtain ⟨edit, -, h⟩ := bind_eq_ok.1 h
  obtain ⟨diffText, hdiff, h⟩ := bind_eq_ok.1 h
  obtain ⟨rfl, rfl⟩ := Prod.mk.inj (Except.ok.inj h)
  refine ⟨_, _, rfl, rfl, rfl, ?_⟩
  unfold diffOf at hdiff
  split at hdiff
  next hsame =>
    cases hdiff
    have hempty : editDiff (root.displayPath (adapter.targetFor scope)) text
        (config.prettyJson edit.1) = "" := Diff.unifiedDiff_eq_empty.2 hsame
    show Shown (editDiff (root.displayPath (adapter.targetFor scope)) text
      (config.prettyJson edit.1)) ""
    rw [hempty]
    exact .whole (by decide)
  next => exact shown_of_truncateDiff hdiff

theorem readBaseline_existing {bytes : Bytes} {text : String} {path : DiskPath}
    (hfile : disk.files path = some bytes) (hquiet : call.previewFaults.readText = none)
    (hdecode : Utf8.decode bytes = some text) :
    config.readBaseline call disk path = .ok (text, (config.fromStr text).getD (.obj []), false) := by
  simp only [readBaseline, hfile, hquiet, hdecode]

/-- What a preview shows, from the outcomes of its steps. -/
theorem planPreview_ok {template baseline : Json} {text diffText : String} {isNewFile : Bool}
    {edit : Json × List String}
    (hpasses : Passes call disk (root.resolve (adapter.targetFor scope)))
    (hload : config.loadTemplate adapter.source = .ok template)
    (hread : config.readBaseline call disk (root.resolve (adapter.targetFor scope)) =
      .ok (text, baseline, isNewFile))
    (hedit : Connector.buildPreview adapter.format operation baseline template = .ok edit)
    (hdiff : diffOf (root.displayPath (adapter.targetFor scope)) text
      (config.prettyJson edit.1) = .ok diffText) :
    ∃ preview stored,
      config.planPreview call adapter scope operation root disk = .ok (preview, stored) ∧
      (∃ shown file, preview.files = [shown] ∧ stored.files = [file] ∧
        shown.diffText = diffText ∧ file.baselineText = text ∧
        file.mergedText = config.prettyJson edit.1 ∧
        file.displayPath = root.displayPath (adapter.targetFor scope)) := by
  unfold planPreview
  refine ⟨_, _, bind_eq_ok.2 ⟨(), mapError_eq_ok.2 hpasses, bind_eq_ok.2 ⟨template,
    mapError_eq_ok.2 hload, bind_eq_ok.2 ⟨(text, baseline, isNewFile), mapError_eq_ok.2 hread,
      bind_eq_ok.2 ⟨edit, mapError_eq_ok.2 hedit, bind_eq_ok.2 ⟨diffText, hdiff, rfl⟩⟩⟩⟩⟩,
    _, _, rfl, rfl, rfl, rfl, rfl, rfl⟩

end ManagerConfig

/-- The diff of two texts tells how the one becomes the other, for every pair of texts. A preview
shows this diff for the text in the file and the text an apply writes; one that is too long is cut
at a byte, and a line says so. -/
theorem Diff.unified_diff_faithful (oldLabel newLabel oldText newText : String) :
    Diff.Tells oldLabel newLabel (Diff.unifiedDiff oldLabel newLabel oldText newText) oldText
      newText ∧
    ∀ (config : ManagerConfig) (call : Call) (adapter : AdapterDescriptor)
      (scope : ConnectorScope) (operation : PlanOperation) (root : ScopeRoot) (disk : Disk)
      (preview : ConnectorPlanPreview) (stored : StoredPlan),
      config.planPreview call adapter scope operation root disk = .ok (preview, stored) →
      ∃ shown file, preview.files = [shown] ∧ stored.files = [file] ∧
        Shown (editDiff file.displayPath file.baselineText file.mergedText) shown.diffText ∧
        ((editDiff file.displayPath file.baselineText file.mergedText).utf8ByteSize ≤
            maxConnectorDiffLen →
          Diff.Tells ("a/" ++ file.displayPath) ("b/" ++ file.displayPath) shown.diffText
            file.baselineText file.mergedText) := by
  refine ⟨Diff.tells_unifiedDiff oldLabel newLabel oldText newText, ?_⟩
  intro config call adapter scope operation root disk preview stored h
  obtain ⟨shown, file, hpreview, hstored, -, hshown⟩ := ManagerConfig.planPreview_shown h
  refine ⟨shown, file, hpreview, hstored, hshown, fun hfits => ?_⟩
  generalize hdiff : editDiff file.displayPath file.baselineText file.mergedText = diff at *
  generalize shown.diffText = text at *
  cases hshown with
  | whole => exact hdiff ▸ Diff.tells_unifiedDiff _ _ _ _
  | cut kept rest heq hsize hlong => exact absurd hfits (Nat.not_le.2 hlong)

/-! ## A change that is not shown -/

/-- A text of letters of one byte, and no JSON. -/
def letters (n : ℕ) : String := String.ofList (List.replicate n 'x')

theorem utf8ByteSize_letters (n : ℕ) : (letters n).utf8ByteSize = n := by
  have hletter : 'x'.utf8Size = 1 := by decide
  rw [letters, String.utf8ByteSize_ofList, ManagerConfig.utf8Len_replicate, hletter, Nat.mul_one]

theorem letters_ne {n : ℕ} {text : String} (h : text.utf8ByteSize ≠ n) : letters n ≠ text := by
  rintro rfl
  exact h (utf8ByteSize_letters n)

/-- No letter of one byte is across a cut. -/
theorem not_straddles_ascii {text : List Char} (h : ∀ c ∈ text, c.utf8Size = 1) (n : ℕ) :
    ¬Straddles text n := by
  rintro ⟨before, c, rest, rfl, hbegins, hends⟩
  rw [h c (by simp)] at hends
  omega

/-- The diff that takes the letters away. -/
theorem unifiedDiff_letters {n : ℕ} (hn : 2 < n) (oldLabel newLabel : String) :
    Diff.unifiedDiff oldLabel newLabel (letters n) "\x7b\x7d" =
      (s!"--- {oldLabel}\n+++ {newLabel}\n" ++ "@@ -1,1 +1,1 @@\n-") ++
        (letters n ++ ("\n+" ++ "\x7b\x7d" ++ "\n")) := by
  have hsize : "\x7b\x7d".utf8ByteSize = 2 := by decide
  exact ManagerConfig.unifiedDiff_line (letters_ne (by omega))
    (ManagerConfig.lines_single (by simp; omega) (by simp))
    (ManagerConfig.lines_single (by simp) (by simp))

namespace ManagerConfig

/-- Taking the hooks out of a file of letters. -/
theorem planPreview_letters {n : ℕ} (hn : 2 < n) :
    ∃ preview stored shown file,
      unreadableConfig.planPreview (sampleCall 'a' 0) cursorAdapter .user .remove homeRoot
        (oneFile homeHooks (some (Utf8.encode (letters n)))) = .ok (preview, stored) ∧
      preview.files = [shown] ∧ stored.files = [file] ∧ file.baselineText = letters n ∧
      file.mergedText = "\x7b\x7d" ∧ file.displayPath = "~/.cursor/hooks.json" := by
  have hsize : "[]".utf8ByteSize = 2 ∧ "\x7b\x7d".utf8ByteSize = 2 := by decide
  have hjson : unreadableConfig.fromStr (letters n) = none :=
    if_neg (letters_ne (by omega))
  have hne : letters n ≠ "\x7b\x7d" := letters_ne (by omega)
  have hascii : ∀ c ∈ (editDiff "~/.cursor/hooks.json" (letters n) "\x7b\x7d").toList,
      c.utf8Size = 1 := by
    have hheader : ("--- a/~/.cursor/hooks.json\n+++ b/~/.cursor/hooks.json\n" ++
        "@@ -1,1 +1,1 @@\n-").toList.all (fun c => c.utf8Size = 1) = true := by decide
    have htail : ("\n+" ++ "\x7b\x7d" ++ "\n").toList.all (fun c => c.utf8Size = 1) = true := by
      decide
    intro c hc
    rw [editDiff, unifiedDiff_letters hn, String.toList_append] at hc
    rcases List.mem_append.1 hc with hc | hc
    · exact of_decide_eq_true (List.all_eq_true.1 hheader c hc)
    rw [String.toList_append] at hc
    rcases List.mem_append.1 hc with hc | hc
    · rw [letters, String.toList_ofList] at hc
      rw [List.eq_of_mem_replicate hc]
      decide
    · exact of_decide_eq_true (List.all_eq_true.1 htail c hc)
  obtain ⟨diffText, hdiff⟩ : ∃ diffText,
      diffOf "~/.cursor/hooks.json" (letters n) "\x7b\x7d" = .ok diffText := by
    cases hdiff : diffOf "~/.cursor/hooks.json" (letters n) "\x7b\x7d" with
    | ok diffText => exact ⟨diffText, rfl⟩
    | error stop =>
      cases stop with
      | panicked message =>
        exact absurd (diffOf_panics.1 ⟨message, hdiff⟩) (not_straddles_ascii hascii _)
      | returned error =>
        rw [diffOf, if_neg hne] at hdiff
        exact absurd hdiff truncateDiff_returns
  have hload : unreadableConfig.loadTemplate cursorAdapter.source = .ok sampleTemplate := rfl
  have hedit : Connector.buildPreview cursorAdapter.format .remove (.obj []) sampleTemplate =
      .ok (.obj [], []) := rfl
  obtain ⟨preview, stored, hplan, shown, file, hpreview, hstored, -, hbaseline, hmerged, hpath⟩ :=
    planPreview_ok (passes_sampleCall _ _) hload (readBaseline_unreadable hjson) hedit
      (displayPath_homeHooks ▸ hdiff)
  exact ⟨preview, stored, shown, file, hplan, hpreview, hstored, hbaseline, hmerged,
    hpath.trans displayPath_homeHooks⟩

/-- The diff in the preview of a short file tells how it is changed. -/
theorem unified_diff_faithful_letters : ∃ preview stored shown file,
    unreadableConfig.planPreview (sampleCall 'a' 0) cursorAdapter .user .remove homeRoot
      (oneFile homeHooks (some (Utf8.encode (letters 3)))) = .ok (preview, stored) ∧
    preview.files = [shown] ∧ stored.files = [file] ∧ file.mergedText = "\x7b\x7d" ∧
    Diff.Tells ("a/" ++ file.displayPath) ("b/" ++ file.displayPath) shown.diffText
      file.baselineText file.mergedText := by
  obtain ⟨preview, stored, shown, file, hplan, hpreview, hstored, hbaseline, hmerged, hpath⟩ :=
    planPreview_letters (show 2 < 3 by decide)
  refine ⟨preview, stored, shown, file, hplan, hpreview, hstored, hmerged, ?_⟩
  obtain ⟨shown', file', hshown, hfile, -, htells⟩ :=
    (Diff.unified_diff_faithful "a" "b" "" "").2 _ _ _ _ _ _ _ _ _ hplan
  obtain rfl := List.singleton_inj.1 (hpreview.symm.trans hshown)
  obtain rfl := List.singleton_inj.1 (hstored.symm.trans hfile)
  refine htells ?_
  have hsize : (editDiff "~/.cursor/hooks.json" (letters 3) "\x7b\x7d").utf8ByteSize = 79 := by
    rw [editDiff, unifiedDiff_letters (by decide)]
    decide
  rw [hbaseline, hmerged, hpath, hsize]
  decide

/-- Of a change of one long line a preview shows a part of the line that goes, and not what comes
in its place. -/
theorem preview_hides_change : ∃ preview stored shown file,
    unreadableConfig.planPreview (sampleCall 'a' 0) cursorAdapter .user .remove homeRoot
      (oneFile homeHooks (some (Utf8.encode (letters 70000)))) = .ok (preview, stored) ∧
    preview.files = [shown] ∧ stored.files = [file] ∧
    ¬Diff.Tells ("a/" ++ file.displayPath) ("b/" ++ file.displayPath) shown.diffText
      file.baselineText file.mergedText := by
  obtain ⟨preview, stored, shown, file, hplan, hpreview, hstored, hbaseline, hmerged, hpath⟩ :=
    planPreview_letters (show 2 < 70000 by decide)
  refine ⟨preview, stored, shown, file, hplan, hpreview, hstored, ?_⟩
  obtain ⟨shown', file', hshown', hfile', -, hshown⟩ := planPreview_shown hplan
  obtain rfl := List.singleton_inj.1 (hpreview.symm.trans hshown')
  obtain rfl := List.singleton_inj.1 (hstored.symm.trans hfile')
  rw [hbaseline, hmerged, hpath] at hshown
  have hlong : maxConnectorDiffLen <
      (editDiff "~/.cursor/hooks.json" (letters 70000) "\x7b\x7d").utf8ByteSize := by
    simp only [editDiff, unifiedDiff_letters (show 2 < 70000 by decide),
      String.utf8ByteSize_append, utf8ByteSize_letters, maxConnectorDiffLen]
    omega
  rintro ⟨-, hunks, hread, -⟩
  generalize shown.diffText = text at hshown hread
  cases hshown with
  | whole hfits => exact Nat.not_le.2 hlong hfits
  | cut kept rest hdiff hsize =>
    have hlast : (kept ++ "\n... [truncated]").toList.getLast? = some ']' := by
      rw [String.toList_append]
      exact List.getLast?_append_of_ne_nil _ (by decide)
    have hsome : kept ++ "\n... [truncated]" ≠ "" := by
      intro hempty
      rw [hempty] at hlast
      cases hlast
    rw [Diff.readDiff, if_neg hsome, hlast, if_neg (by decide)] at hread
    cases hread

end ManagerConfig

end Connector

end LlmNotch
