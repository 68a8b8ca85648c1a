import LlmNotch.HookPlan

/-!
# Which decisions travel

A plan bounds the event it sends but not the wait, whose connection identifier joins three
fields and whose context repeats the tool input; the answer to a plan approval repeats the
input once more. `decisions_travel_iff` says which plans and which answers the encoder
accepts.
-/

namespace LlmNotch

open Json

/-! ## What fits -/

/-- The three parts of the connection identifier fit into it, and the version and the tool
input into the context. -/
structure PlanFits (vendorEvent : String) (value : Json) : Prop where
  connection : size ((Ipc.externalSessionIdOf value).getD "") + size vendorEvent +
    size ((Ipc.toolNameOf value).getD "none") + 2 ≤ 64
  context : size (((Ipc.versionOf value).map Json.str).getD .null).text +
    size ((value.getEither "tool_input" "toolInput").getD .null).text + 41 ≤
      Ipc.maxDecisionContextBytes

/-- The input a plan approval repeats. -/
def planInput (parse : String → Option Json) (wait : Ipc.DecisionWaitPayload) : Json :=
  ((wait.vendorContextJson.bind parse).bind fun value =>
    value.getEither "updated_input" "updatedInput").getD (.obj [])

/-- The approval of a plan leaves room for its input. -/
def AnswerFits (parse : String → Option Json) (wait : Ipc.DecisionWaitPayload)
    (action : DecisionResponseAction) : Prop :=
  wait.respondableHook = some "exitPlanModePreToolUse" → action = .allow →
    size (planInput parse wait).text + 98 ≤ Ipc.maxDecisionContextBytes

/-! ## Plans -/

namespace Ipc

theorem size_vendorContext (value : Json) :
    size (vendorContext value).text = size (((versionOf value).map Json.str).getD .null).text +
      size ((value.getEither "tool_input" "toolInput").getD .null).text + 41 := by
  have hkeys : size (quote "claude_code_version") = 21 ∧ size (quote "updated_input") = 15 ∧
      size "\x7b" = 1 ∧ size "\x7d" = 1 ∧ size ":" = 1 ∧ size "," = 1 := by
    decide
  simp only [size] at hkeys
  simp only [vendorContext, text, textFields, size, String.utf8ByteSize_append]
  omega

theorem size_connectionIdOf (externalSessionId vendorEvent : String) (toolName : Option String) :
    size (connectionIdOf externalSessionId vendorEvent toolName) =
      size externalSessionId + size vendorEvent + size (toolName.getD "none") + 2 := by
  have hcolon : size ":" = 1 := by decide
  simp only [size] at hcolon
  simp only [connectionIdOf, size, String.utf8ByteSize_append]
  omega

theorem validateRequestId_simple (id : Uuid) : validateRequestId id.simple = .ok () := by
  have hdigit : ∀ n < 16, (hexDigit n).utf8Size = 1 ∧
      RustText.isAsciiAlphanumeric (hexDigit n) = true := by
    decide
  have hsize : size id.simple = 32 := by
    rw [size, Uuid.simple, String.utf8ByteSize_ofList, utf8Len_of_ascii]
    · simp
    · intro c hc
      obtain ⟨i, -, rfl⟩ := List.mem_map.1 hc
      exact (hdigit _ (Nat.mod_lt _ (by decide))).1
  refine validateRequestId_ok_iff.2 ⟨by rw [hsize]; decide, ?_⟩
  rw [List.all_eq_true]
  intro c hc
  rw [Uuid.simple, String.toList_ofList] at hc
  obtain ⟨i, -, rfl⟩ := List.mem_map.1 hc
  rw [(hdigit _ (Nat.mod_lt _ (by decide))).2]
  rfl

variable {fileName : String → Option String} {nonce : Uuid} {now : Int64} {vendorEvent : String}
  {value : Json} {plan : InteractiveDecisionPlan} {normalized : NormalizedClaudeEvent}
  {hook : ClaudeRespondableHook} {action : DecisionResponseAction}

/-- Where a plan comes from. -/
theorem plan_cases {source : String}
    (h : planInteractiveDecision fileName nonce now source vendorEvent value = .ok (some plan)) :
    ∃ normalized kind hook, source = "claudeCode" ∧
      normalizeEvent fileName vendorEvent value = .ok normalized ∧
      validateIngestPayload (ingestOf source normalized) = .ok () ∧
      plan.wait = waitOf nonce now source vendorEvent value normalized kind hook := by
  unfold planInteractiveDecision at h
  split at h
  · cases h
  rename_i hsource
  split at h
  · cases h
  rename_i normalized hnormalized
  split at h
  · rename_i kind hook hkind hhook
    cases hvalid : validateIngestPayload (ingestOf source normalized) with
    | error e =>
      rw [hvalid] at h
      cases h
    | ok u =>
      rw [hvalid] at h
      obtain rfl := Option.some.inj (Except.ok.inj h)
      exact ⟨normalized, kind, hook, not_not.1 hsource, hnormalized, hvalid, rfl⟩
  · cases h

/-- What a normalized event keeps of its payload. -/
theorem normalizeEvent_fields {payload : Json}
    (h : normalizeEvent fileName vendorEvent payload = .ok normalized) :
    externalSessionIdOf payload = some normalized.externalSessionId ∧
      normalized.toolName = toolNameOf payload ∧ normalizeVendorEventName vendorEvent ≠ "" := by
  unfold normalizeEvent at h
  split at h
  · cases h
  split at h
  · cases h
  rename_i externalSessionId hsession
  simp only at h
  split at h
  · cases h
  rename_i shape hshape
  cases h
  refine ⟨hsession, rfl, fun hempty => ?_⟩
  rw [hempty] at hshape
  simp [eventShape] at hshape

theorem vendorEvent_pos (h : normalizeVendorEventName vendorEvent ≠ "") : 0 < size vendorEvent := by
  rw [Nat.pos_iff_ne_zero]
  intro hzero
  rw [String.utf8ByteSize_eq_zero_iff] at hzero
  subst hzero
  exact h rfl

/-- The bounds of an event that a wait repeats. -/
theorem ingest_bounds {payload : IngestPayload} (h : validateIngestPayload payload = .ok ()) :
    (∀ v, payload.externalSessionId = some v → 0 < size v ∧ size v ≤ maxExternalSessionIdLen) ∧
    (∀ v, payload.summary = some v → 0 < size v ∧ size v ≤ maxEventSummaryLen) ∧
    (∀ v, payload.toolName = some v → 0 < size v ∧ size v ≤ maxToolNameLen) := by
  simp only [validateIngestPayload, bind_ok_iff, validateOptional_ok_iff] at h
  obtain ⟨-, -, -, hexternal, -, -, -, -, hsummary, htool, -⟩ := h
  exact ⟨hexternal, hsummary, htool⟩

/-- The bounds of a planned wait that its event does not imply. -/
theorem validate_waitOf_iff {kind : DecisionKind}
    (hingest : validateIngestPayload (ingestOf "claudeCode" normalized) = .ok ())
    (hevent : 0 < size vendorEvent) :
    validateDecisionWait (waitOf nonce now "claudeCode" vendorEvent value normalized kind hook) =
        .ok () ↔
      size (connectionIdOf normalized.externalSessionId vendorEvent normalized.toolName) ≤ 64 ∧
        size (vendorContext value).text ≤ maxDecisionContextBytes := by
  obtain ⟨hexternal, hsummary, htool⟩ := ingest_bounds hingest
  have hkind : 0 < size (decisionKindName kind) ∧ size (decisionKindName kind) ≤ 32 := by
    cases kind <;> decide
  have hhook : 0 < size (respondableName hook) ∧ size (respondableName hook) ≤ 64 := by
    cases hook <;> decide
  have hconnection := size_connectionIdOf normalized.externalSessionId vendorEvent
    normalized.toolName
  rw [validateDecisionWait_ok_iff]
  constructor
  · rintro ⟨-, -, -, -, -, -, -, -, ⟨-, hfits⟩, hcontext⟩
    exact ⟨hfits, hcontext _ rfl⟩
  · rintro ⟨hfits, hcontext⟩
    have hsource : 0 < size "claudeCode" ∧ size "claudeCode" ≤ 32 := by decide
    refine ⟨hsource, ⟨hevent, ?_⟩, hexternal _ rfl, fun v hv => (by cases hv), hkind,
      hsummary _ rfl, ?_, htool, ⟨?_, hfits⟩, ?_⟩
    · show size vendorEvent ≤ 64
      omega
    · intro v hv
      cases hv
      exact hhook
    · show 0 < size (connectionIdOf _ _ _)
      omega
    · intro v hv
      cases hv
      exact hcontext

/-- A plan travels exactly if its parts fit. -/
theorem plan_travels_iff {source : String}
    (h : planInteractiveDecision fileName nonce now source vendorEvent value = .ok (some plan)) :
    Travels (.decisionWait ipcWireVersion plan.wait) ↔ PlanFits vendorEvent value := by
  obtain ⟨normalized, kind, hook, rfl, hnormalized, hingest, hwait⟩ := plan_cases h
  obtain ⟨hsession, htool, hname⟩ := normalizeEvent_fields hnormalized
  have hvalid : validateDecisionWait plan.wait = .ok () ↔
      size (connectionIdOf normalized.externalSessionId vendorEvent normalized.toolName) ≤ 64 ∧
        size (vendorContext value).text ≤ maxDecisionContextBytes := by
    rw [hwait]
    exact validate_waitOf_iff hingest (vendorEvent_pos hname)
  have hid : validateRequestId plan.wait.nonce = .ok () := by
    rw [hwait]
    exact validateRequestId_simple nonce
  rw [size_connectionIdOf, size_vendorContext] at hvalid
  rw [encode_wait_iff, validateWireMessage_ok_iff]
  constructor
  · rintro ⟨-, -, hok⟩
    obtain ⟨hconnection, hcontext⟩ := hvalid.1 hok
    refine ⟨?_, hcontext⟩
    rw [hsession, ← htool, Option.getD_some]
    exact hconnection
  · rintro ⟨hconnection, hcontext⟩
    rw [hsession, ← htool, Option.getD_some] at hconnection
    exact ⟨hid, rfl, hvalid.2 ⟨hconnection, hcontext⟩⟩

/-! ## Answers -/

/-- Where the output of an answer comes from. -/
theorem stdout_cases {cfg : BrokerConfig} {payload : LlmNotch.DecisionWaitPayload} {now : ℤ}
    {stdout : String}
    (h : checkSubmit (cfg.registration payload) (.action action) now = .choose stdout) :
    ∃ hook value, respondableHook payload.respondableHook = .ok hook ∧
      buildDecisionResponse hook action (payload.vendorContext.bind fun value =>
        value.getEither "updated_input" "updatedInput") = .ok value ∧ stdout = value.text := by
  have hcheck : checkStdout (cfg.registration payload) (.action action) = .choose stdout := by
    change (if (cfg.registration payload).expiresAtMs ≤ now then SubmitCheck.expire
      else if (cfg.registration payload).request.hasActionablePayload = false then
        .refuse .notActionable
      else checkStdout (cfg.registration payload) (.action action)) = _ at h
    by_cases hexpired : (cfg.registration payload).expiresAtMs ≤ now
    · rw [if_pos hexpired] at h
      cases h
    rw [if_neg hexpired] at h
    by_cases hinert : (cfg.registration payload).request.hasActionablePayload = false
    · rw [if_pos hinert] at h
      cases h
    · rw [if_neg hinert] at h
      exact h
  have hbuild : buildStdoutForActive (cfg.registration payload) (.action action) = .ok stdout := by
    unfold checkStdout at hcheck
    split at hcheck
    · rename_i hbuild
      split at hcheck
      · cases hcheck
      · rw [hbuild, SubmitCheck.choose.inj hcheck]
    · cases hcheck
    · cases hcheck
  have hclaude : buildClaudeStdout payload.respondableHook action payload.vendorContext =
      .ok stdout := by
    simp only [buildStdoutForActive, buildVendorStdout, BrokerConfig.registration,
      BrokerConfig.request] at hbuild
    split at hbuild
    all_goals first | exact hbuild | cases hbuild
  unfold buildClaudeStdout at hclaude
  split at hclaude
  · cases hclaude
  rename_i hook hhook
  simp only at hclaude
  split at hclaude
  · cases hclaude
  split at hclaude
  · rename_i value hvalue
    exact ⟨hook, value, hhook, hvalue, (Except.ok.inj hclaude).symm⟩
  · cases hclaude

theorem respondableHook_ok {name : Option String} (h : respondableHook name = .ok hook) :
    name = some (respondableName hook) := by
  unfold respondableHook at h
  split at h
  · split at h
    · rename_i hname
      cases h
      rw [hname]
      rfl
    split at h
    · rename_i hname
      cases h
      rw [hname]
      rfl
    · cases h
  · cases h

theorem size_planApproval (fields : List (String × Json)) :
    size (Json.obj [("hookSpecificOutput", .obj [("hookEventName", .str "PreToolUse"),
      ("permissionDecision", .str "allow"), ("updatedInput", .obj fields)])]).text =
      size (Json.obj fields).text + 98 := by
  have hkeys : size (quote "hookSpecificOutput") = 20 ∧ size (quote "hookEventName") = 15 ∧
      size (quote "PreToolUse") = 12 ∧ size (quote "permissionDecision") = 20 ∧
      size (quote "allow") = 7 ∧ size (quote "updatedInput") = 14 ∧
      size "\x7b" = 1 ∧ size "\x7d" = 1 ∧ size ":" = 1 ∧ size "," = 1 := by
    decide
  simp only [size] at hkeys
  simp only [text, textFields, size, String.utf8ByteSize_append]
  omega

/-- An answer travels exactly if it fits. -/
theorem answer_travels_iff {cfg : BrokerConfig} {parse : String → Option Json} {v : UInt16}
    {wait : DecisionWaitPayload} {now : ℤ} {stdout : String} {state : DecisionDeliveryState}
    (hwait : validateWireMessage (.decisionWait v wait) = .ok ())
    (hsubmit : checkSubmit (cfg.registration (convertIpcPayload parse wait)) (.action action) now =
      .choose stdout) :
    Travels (.decisionReply ipcWireVersion wait.nonce stdout (deliveryStateWire state)) ↔
      AnswerFits parse wait action := by
  have hid := (validateWireMessage_ok_iff.1 hwait).1
  have hstate : 0 < size (deliveryStateWire state) ∧ size (deliveryStateWire state) ≤ 32 := by
    cases state <;> decide
  have hiff : Travels (.decisionReply ipcWireVersion wait.nonce stdout (deliveryStateWire state)) ↔
      size stdout ≤ maxDecisionContextBytes := by
    rw [encode_reply_iff, validateWireMessage_ok_iff]
    exact ⟨fun h => h.2.2.1, fun h => ⟨hid, rfl, h, hstate⟩⟩
  obtain ⟨hook, value, hhook, hvalue, rfl⟩ := stdout_cases hsubmit
  have hname : wait.respondableHook = some (respondableName hook) := respondableHook_ok hhook
  rw [hiff]
  cases hook with
  | permissionRequest =>
    have hfits : AnswerFits parse wait action := by
      intro hexit
      rw [hname] at hexit
      exact absurd hexit (by decide)
    refine iff_of_true ?_ hfits
    cases action with
    | allow =>
      cases hvalue
      decide
    | deny =>
      cases hvalue
      decide
  | exitPlanModePreToolUse =>
    cases action with
    | deny =>
      cases hvalue
      exact iff_of_true (by decide +kernel) fun _ hallow => (by cases hallow)
    | allow =>
      have happrove : buildExitPlanApproveResponse (planInput parse wait) = .ok value := hvalue
      cases hinput : planInput parse wait with
      | obj fields =>
        rw [hinput] at happrove
        cases happrove
        rw [size_planApproval, ← hinput]
        exact ⟨fun h _ _ => h, fun h => h hname rfl⟩
      | _ =>
        rw [hinput] at happrove
        cases happrove

/-- Which plans and which answers the encoder accepts. -/
theorem decisions_travel_iff (fileName : String → Option String) (nonce : Uuid) (now : Int64)
    (source vendorEvent : String) (value : Json) (cfg : BrokerConfig)
    (parse : String → Option Json) (v : UInt16) (wait : DecisionWaitPayload)
    (action : DecisionResponseAction) (time : ℤ) (state : DecisionDeliveryState) :
    (∀ plan : InteractiveDecisionPlan,
      planInteractiveDecision fileName nonce now source vendorEvent value = .ok (some plan) →
        (Travels (.decisionWait ipcWireVersion plan.wait) ↔ PlanFits vendorEvent value)) ∧
    (validateWireMessage (.decisionWait v wait) = .ok () → wait.hasActionablePayload = true →
      ∀ stdout, checkSubmit (cfg.registration (convertIpcPayload parse wait)) (.action action) time =
        .choose stdout →
        (Travels (.decisionReply ipcWireVersion wait.nonce stdout (deliveryStateWire state)) ↔
          AnswerFits parse wait action)) :=
  ⟨fun _ hplan => plan_travels_iff hplan,
    fun hwait _ _ hsubmit => answer_travels_iff hwait hsubmit⟩

/-- A permission request of a tool. -/
def permissionRequest (toolName : String) : Json :=
  .obj [("session_id", .str "01234567-89ab-cdef-0123-456789abcdef"), ("tool_name", .str toolName),
    ("claude_code_version", .str "2.1.205")]

/-- The plan of a permission request. -/
def permissionPlan (toolName : String) : Except IpcError (Option InteractiveDecisionPlan) :=
  planInteractiveDecision (fun _ => none) Uuid.nil 0 "claudeCode" "PermissionRequest"
    (permissionRequest toolName)

theorem exists_plan {result : Except IpcError (Option InteractiveDecisionPlan)}
    {p : InteractiveDecisionPlan → Bool}
    (h : (match result with | .ok (some plan) => p plan | _ => false) = true) :
    ∃ plan, result = .ok (some plan) ∧ p plan = true := by
  split at h
  · exact ⟨_, rfl, h⟩
  · cases h

/-- The broker that gets the wait of a permission request. -/
def permissionAnswer (plan : InteractiveDecisionPlan) : SubmitCheck :=
  checkSubmit (BrokerConfig.registration ⟨decisionFailOpenTimeoutMs, fun _ id => id⟩
    (convertIpcPayload (fun _ => some (vendorContext (permissionRequest "Bash"))) plan.wait))
    (.action .allow) 0

/-- The wait for a short tool name, and the answer to it. -/
theorem decisions_travel_bash : ∃ plan stdout, permissionPlan "Bash" = .ok (some plan) ∧
    Travels (.decisionWait ipcWireVersion plan.wait) ∧ permissionAnswer plan = .choose stdout ∧
    Travels (.decisionReply ipcWireVersion plan.wait.nonce stdout (deliveryStateWire .pending)) := by
  obtain ⟨plan, hplan, hp⟩ : ∃ plan, permissionPlan "Bash" = .ok (some plan) ∧
      decide (plan.wait.hasActionablePayload = true ∧
        plan.wait.respondableHook = some "permissionRequest" ∧
        permissionAnswer plan = .choose (buildPermissionResponse .allow).text) = true :=
    exists_plan (by decide)
  obtain ⟨hactionable, hhook, hanswer⟩ := of_decide_eq_true hp
  have hfits : PlanFits "PermissionRequest" (permissionRequest "Bash") :=
    ⟨by decide, by decide⟩
  obtain ⟨hwaits, hanswers⟩ := decisions_travel_iff (fun _ => none) 0 0 "claudeCode"
    "PermissionRequest" (permissionRequest "Bash") ⟨decisionFailOpenTimeoutMs, fun _ id => id⟩
    (fun _ => some (vendorContext (permissionRequest "Bash"))) ipcWireVersion plan.wait .allow 0
    .pending
  have htravels := (hwaits plan hplan).2 hfits
  refine ⟨plan, _, hplan, htravels, hanswer, ?_⟩
  refine (hanswers (encode_wait_iff.1 htravels) hactionable _ hanswer).2 fun hexit => ?_
  rw [hhook] at hexit
  exact absurd hexit (by decide)

/-- A session identifier and an ordinary tool name are too long for the connection. -/
theorem plan_exceeds_connection : ∃ plan, permissionPlan "NotebookEdit" = .ok (some plan) ∧
    ¬ Travels (.decisionWait ipcWireVersion plan.wait) := by
  obtain ⟨plan, hplan, -⟩ : ∃ plan, permissionPlan "NotebookEdit" = .ok (some plan) ∧
      (fun _ => true) plan = true :=
    exists_plan (by decide)
  refine ⟨plan, hplan, fun htravels => ?_⟩
  have hfits := (plan_travels_iff hplan).1 htravels
  exact absurd hfits.connection (by decide)

end Ipc

end LlmNotch
