import LlmNotch.HeardEvents

/-!
# What the reports of the helper depend on

A document of an agent holds prompts, commands and outputs that are not to leave the helper.
`report_reads_only` : documents that agree on few fields give the same report. Of a path it is the
last component that counts, of a tool call the name, and the text of a notification counts for
Gemini alone.
-/

namespace LlmNotch

namespace Ipc

open Json

variable {fileName : String → Option String} {nonce : Uuid} {now : Int64} {env : CollectorEnv}
  {source vendorEvent : String} {value : Json} {report : VendorReport}

/-! ## What a report depends on -/

/-- The fields that are read as they are. -/
def vendorKeys (source vendorEvent : String) : List String :=
  sessionKeys ++ ["tool_name", "toolName"] ++ occurredKeys ++
    ["terminal_session_id", "terminalSessionId", "tab_id", "tabId", "pane_id", "paneId",
      "window_handle", "windowHandle"] ++
    if source = "gemini" ∧ normalizeVendorEventName vendorEvent = "notification" then
      ["notification_type", "message"]
    else []

def toolCallName (value : Json) : Option String :=
  (value.get "toolCall").bind fun call => call.getStr "name"

/-- The documents agree on what a report may depend on. Of a path this is the last component. -/
structure SameView (fileName : String → Option String) (source vendorEvent : String)
    (value other : Json) : Prop where
  fields : ∀ key ∈ vendorKeys source vendorEvent, other.get key = value.get key
  toolCall : toolCallName other = toolCallName value
  cwd : (other.getStr "cwd").map fileName = (value.getStr "cwd").map fileName
  roots : ∀ key ∈ ["workspace_roots", "workspacePaths"],
    (firstRoot other key).map fileName = (firstRoot value key).map fileName

section View

variable {other : Json}

variable {key : String} {fields fields' : List (String × Json)}

theorem mem_vendorKeys (h : key ∈ sessionKeys ++ ["tool_name", "toolName"] ++
    occurredKeys ++ ["terminal_session_id", "terminalSessionId", "tab_id", "tabId", "pane_id",
      "paneId", "window_handle", "windowHandle"]) : key ∈ vendorKeys source vendorEvent :=
  List.mem_append_left _ h

theorem SameView.getStr (h : SameView fileName source vendorEvent value other)
    (hkey : key ∈ vendorKeys source vendorEvent) : other.getStr key = value.getStr key := by
  rw [Json.getStr, Json.getStr, h.fields key hkey]

theorem findSome?_congr {α β : Type} {l : List α} {f g : α → Option β} (h : ∀ a ∈ l, f a = g a) :
    l.findSome? f = l.findSome? g := by
  induction l with
  | nil => rfl
  | cons a l ih =>
    rw [List.findSome?_cons, List.findSome?_cons, h a List.mem_cons_self,
      ih fun b hb => h b (List.mem_cons_of_mem a hb)]

theorem SameView.firstStr (h : SameView fileName source vendorEvent value other)
    {keys : List String} (hkeys : ∀ key ∈ keys, key ∈ vendorKeys source vendorEvent) :
    firstStr other keys = firstStr value keys :=
  findSome?_congr fun key hkey => h.getStr (hkeys key hkey)

theorem bind_of_map {α β : Type} {a b : Option α} {f : α → Option β} (h : a.map f = b.map f) :
    a.bind f = b.bind f := by
  cases a <;> cases b <;> simp_all

section

variable (h : SameView fileName source vendorEvent value other)

include h

/-- The path of the first field that has one. -/
theorem SameView.workspaceLabel :
    (((other.getStr "cwd").or (firstRoot other "workspace_roots")).or
        (firstRoot other "workspacePaths")).bind fileName =
      (((value.getStr "cwd").or (firstRoot value "workspace_roots")).or
        (firstRoot value "workspacePaths")).bind fileName := by
  refine bind_of_map ?_
  rw [Option.map_or, Option.map_or, Option.map_or, Option.map_or, h.cwd,
    h.roots "workspace_roots" (by decide), h.roots "workspacePaths" (by decide)]

theorem SameView.isSome_asObject (hkey : key ∈ vendorKeys source vendorEvent) {v : Json}
    (hv : value.get key = some v) : ∃ fields, other.asObject = some fields := by
  rw [← h.fields key hkey] at hv
  obtain ⟨fields, hfields, -⟩ := Option.bind_eq_some_iff.1 hv
  exact ⟨fields, hfields⟩

/-- The text of a notification is read for Gemini alone. -/
theorem SameView.mapVendorEvent :
    mapVendorEvent source (normalizeVendorEventName vendorEvent) other =
      mapVendorEvent source (normalizeVendorEventName vendorEvent) value := by
  have hgemini : source = "gemini" ∧ normalizeVendorEventName vendorEvent = "notification" →
      mapGeminiNotification other = mapGeminiNotification value := by
    intro hnotification
    have hread : ∀ key ∈ ["notification_type", "message"], other.getStr key = value.getStr key := by
      intro key hkey
      refine h.getStr (List.mem_append_right _ ?_)
      rw [if_pos hnotification]
      exact hkey
    rw [mapGeminiNotification, mapGeminiNotification, hread "notification_type" (by decide),
      hread "message" (by decide)]
  unfold Ipc.mapVendorEvent
  split_ifs with hstart hend hstop hnotification
  all_goals first | rfl | exact hgemini hnotification

theorem SameView.vendorHookPayload (hvalue : value.asObject = some fields)
    (hother : other.asObject = some fields') :
    vendorHookPayload fileName source vendorEvent other =
      vendorHookPayload fileName source vendorEvent value := by
  have hfirst : ∀ keys, (∀ key ∈ keys, key ∈ sessionKeys ++ ["tool_name", "toolName"] ++
      occurredKeys ++ ["terminal_session_id", "terminalSessionId", "tab_id", "tabId", "pane_id",
        "paneId", "window_handle", "windowHandle"]) →
      Ipc.firstStr other keys = Ipc.firstStr value keys := fun keys hkeys =>
    h.firstStr fun key hkey => mem_vendorKeys (hkeys key hkey)
  have htoolCall : ((other.get "toolCall").bind fun call => call.getStr "name") =
      (value.get "toolCall").bind fun call => call.getStr "name" := h.toolCall
  have hoccurred : (occurredKeys.findSome? fun key => (other.get key).bind asInt64) =
      occurredKeys.findSome? fun key => (value.get key).bind asInt64 := by
    refine findSome?_congr fun key hkey => ?_
    rw [h.fields key (mem_vendorKeys (by
      simp only [List.mem_append]
      exact Or.inl (Or.inr hkey)))]
  have hwindow : readWindowHandleFromVendor other = readWindowHandleFromVendor value := by
    have hget : ["window_handle", "windowHandle"].findSome? other.get =
        ["window_handle", "windowHandle"].findSome? value.get := by
      refine findSome?_congr fun key hkey => h.fields key (mem_vendorKeys ?_)
      revert key
      decide
    rw [readWindowHandleFromVendor, readWindowHandleFromVendor, hget]
  unfold Ipc.vendorHookPayload readTerminalFieldFromVendor
  rw [hvalue, hother, hfirst sessionKeys (by decide), hfirst _ (by decide), hfirst _ (by decide),
    hfirst _ (by decide), hfirst _ (by decide), htoolCall, hoccurred, hwindow, h.workspaceLabel,
    h.mapVendorEvent]

theorem SameView.normalizeEvent (hvalue : value.asObject = some fields)
    (hother : other.asObject = some fields') :
    normalizeEvent fileName vendorEvent other = normalizeEvent fileName vendorEvent value := by
  have hsession : externalSessionIdOf other = externalSessionIdOf value := by
    rw [externalSessionIdOf, externalSessionIdOf, h.getStr (mem_vendorKeys (by decide)),
      h.getStr (mem_vendorKeys (by decide))]
  have htool : toolNameOf other = toolNameOf value := by
    unfold toolNameOf getEither
    rw [h.fields "tool_name" (mem_vendorKeys (by decide)),
      h.fields "toolName" (mem_vendorKeys (by decide))]
  have hcwd : (other.getStr "cwd").bind fileName = (value.getStr "cwd").bind fileName :=
    bind_of_map h.cwd
  unfold Ipc.normalizeEvent
  rw [hvalue, hother, hsession, htool, hcwd]

/-- A plan may keep more of the document, but the event it reports does not. -/
theorem SameView.plan (hvalue : value.asObject = some fields)
    (hother : other.asObject = some fields') {result : Option InteractiveDecisionPlan}
    (hplan : planInteractiveDecision fileName nonce now source vendorEvent value = .ok result) :
    ∃ result', planInteractiveDecision fileName nonce now source vendorEvent other = .ok result' ∧
      result'.map InteractiveDecisionPlan.ingest = result.map InteractiveDecisionPlan.ingest := by
  unfold planInteractiveDecision at hplan ⊢
  rw [h.normalizeEvent hvalue hother]
  split_ifs at hplan ⊢ with hsource
  · exact ⟨result, hplan, rfl⟩
  · cases hnormal : Ipc.normalizeEvent fileName vendorEvent value with
    | error error =>
      rw [hnormal] at hplan
      cases hplan
    | ok normalized =>
      rw [hnormal] at hplan
      dsimp only at hplan ⊢
      split at hplan
      · next kind hook hkind hhook =>
        obtain ⟨u, hvalid, hplan⟩ := bind_eq_ok.1 hplan
        cases hplan
        rw [hvalid]
        exact ⟨_, rfl, rfl⟩
      · exact ⟨result, hplan, rfl⟩

end

/-- Documents that agree on the fields of `vendorKeys`, on the name in `toolCall` and on the last
components of the paths give the same report, whatever else they hold. -/
theorem report_reads_only (hview : SameView fileName source vendorEvent value other)
    (h : runVendorHook fileName nonce now env source vendorEvent value = .ok report) :
    ∃ report', runVendorHook fileName nonce now env source vendorEvent other = .ok report' ∧
      report'.payload = report.payload := by
  obtain ⟨externalSessionId, hsession, -, -⟩ := report_carries h
  obtain ⟨key, hkey, hstr⟩ := List.exists_of_findSome?_eq_some hsession
  obtain ⟨v, hv, -⟩ := Option.bind_eq_some_iff.1 hstr
  have hmem : key ∈ vendorKeys source vendorEvent := mem_vendorKeys (by
    simp only [List.mem_append]
    exact Or.inl (Or.inl (Or.inl hkey)))
  obtain ⟨fields, hvalue, -⟩ := Option.bind_eq_some_iff.1 hv
  obtain ⟨fields', hother⟩ := hview.isSome_asObject hmem hv
  obtain ⟨result, hresult, h⟩ := bind_eq_ok.1 h
  obtain ⟨result', hresult', hmap⟩ := hview.plan hvalue hother hresult
  unfold runVendorHook
  rw [hresult']
  cases result with
  | some plan =>
    cases h
    obtain ⟨plan', rfl, hingest⟩ := Option.map_eq_some_iff.1 hmap
    exact ⟨_, rfl, hingest⟩
  | none =>
    obtain rfl := Option.map_eq_none_iff.1 hmap
    refine ⟨report, ?_, rfl⟩
    rw [← h, hview.vendorHookPayload hvalue hother]
    rfl

end View

/-- The command that a tool is called with does not show. -/
theorem report_reads_only_shell :
    ∃ report', runVendorHook notesOnly Uuid.nil 7 noTerminal "claudeCode" "PostToolUse"
        (shellEvent "cat .env") = .ok report' ∧ report'.payload = shellPayload := by
  have hview : SameView notesOnly "claudeCode" "PostToolUse" (shellEvent "make")
      (shellEvent "cat .env") := by
    have hapart : ∀ key ∈ vendorKeys "claudeCode" "PostToolUse", "tool_input" ≠ key := by
      decide
    refine ⟨fun key hkey => ?_, rfl, rfl, fun key hkey => ?_⟩
    · have hne := hapart key hkey
      simp only [shellEvent, Json.get, asObject, Option.bind_some, fieldOf, if_neg hne]
    · simp only [List.mem_cons, List.not_mem_nil, or_false] at hkey
      rcases hkey with rfl | rfl <;> rfl
  exact report_reads_only hview (shell_report "make")

end Ipc

end LlmNotch
